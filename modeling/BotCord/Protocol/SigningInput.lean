import BotCord.Foundation.Text
import Mathlib

/-!
# The signing input of an envelope

`MessageEnvelope` of `hub/schemas.py`, `build_signing_input` and `verify_envelope_sig` of `hub/crypto.py`, and `_verify_envelope` of `hub/routers/hub.py`. The digest of a payload and the Ed25519 check are parameters.
-/

namespace BotCord.Protocol

inductive MessageType
  | message | ack | result | error | contactRequest | contactRequestResponse | contactRemoved | system | cloudRun

def MessageType.value : MessageType → String
  | .message => "message"
  | .ack => "ack"
  | .result => "result"
  | .error => "error"
  | .contactRequest => "contact_request"
  | .contactRequestResponse => "contact_request_response"
  | .contactRemoved => "contact_removed"
  | .system => "system"
  | .cloudRun => "cloud_run"

structure Signature where
  keyId : String
  value : String

/-- An envelope as the schema lets it through; mentions and the trace id are never signed. -/
structure MessageEnvelope (π : Type) where
  v : String := "a2a/0.1"
  msgId : String
  ts : ℤ
  from_ : String
  to_ : String
  type : MessageType
  replyTo : Option String := none
  ttlSec : ℤ := 3600
  topic : Option String := none
  goal : Option String := none
  payload : π
  payloadHash : String
  sig : Signature
  ttl_positive : 1 ≤ ttlSec := by decide

variable {π : Type}

/-- `value or ""`. -/
def orEmpty (value : Option String) : String := value.getD ""

def baseParts (envelope : MessageEnvelope π) : List String :=
  [envelope.v, envelope.msgId, envelope.ts.repr, envelope.from_, envelope.to_, envelope.type.value,
    orEmpty envelope.replyTo, envelope.ttlSec.repr, envelope.payloadHash]

/-- All but the first version sign the topic and the goal as well. -/
def signingParts (envelope : MessageEnvelope π) : List String :=
  if envelope.v ≠ "a2a/0.1" then baseParts envelope ++ [orEmpty envelope.topic, orEmpty envelope.goal]
  else baseParts envelope

def buildSigningInput (envelope : MessageEnvelope π) : ByteArray :=
  ("\n".intercalate (signingParts envelope)).toUTF8

structure SigningKey where
  keyId : String
  agentId : String
  pubkey : String
  active : Bool := true

/-- What the hub computes with libraries: the digest of a payload's canonical text, and whether a signature is one of the bytes under a public key. -/
structure Primitives (π : Type) where
  payloadDigest : π → String
  verifies : String → ByteArray → String → Bool

inductive VerifyError
  | timestampOutOfRange | payloadHashMismatch | signingKeyNotFoundOrInactive | keyDoesNotBelongToSender
  | signatureVerificationFailed

/-- What the hub looks up while it verifies: the clock in whole seconds and the signing keys. -/
structure Hub where
  time : ℤ
  keys : List SigningKey

variable (primitives : Primitives π)

def computePayloadHash (payload : π) : String := "sha256:" ++ primitives.payloadDigest payload

def checkTimestamp (time ts : ℤ) : Bool := (time - ts).natAbs ≤ 300

/-- A human's envelope is proved by the transport, not by its signature. -/
def verifyEnvelopeSig (envelope : MessageEnvelope π) (pubkey : String) : Bool :=
  envelope.from_.startsWith "hu_" || primitives.verifies pubkey (buildSigningInput envelope) envelope.sig.value

def verifyEnvelope (hub : Hub) (envelope : MessageEnvelope π) : Except VerifyError Unit :=
  if ¬ checkTimestamp hub.time envelope.ts then .error .timestampOutOfRange
  else if computePayloadHash primitives envelope.payload ≠ envelope.payloadHash then .error .payloadHashMismatch
  else
    match hub.keys.find? fun key => key.keyId = envelope.sig.keyId && key.active with
    | none => .error .signingKeyNotFoundOrInactive
    | some key =>
      if key.agentId ≠ envelope.from_ then .error .keyDoesNotBelongToSender
      else if ¬ verifyEnvelopeSig primitives envelope (String.ofList (key.pubkey.toList.drop 8)) then
        .error .signatureVerificationFailed
      else .ok ()

/-- The hub accepts the envelope, at some time and with some keys. -/
def Accepted (envelope : MessageEnvelope π) : Prop := ∃ hub, verifyEnvelope primitives hub envelope = .ok ()

/-- Digests are written in hexadecimal digits. -/
def Hexadecimal : Prop := ∀ payload, ∀ c ∈ (primitives.payloadDigest payload).toList, c ∈ "0123456789abcdef".toList

variable {primitives}

theorem payloadHash_of_accepted {envelope : MessageEnvelope π} (h : Accepted primitives envelope) :
    envelope.payloadHash = computePayloadHash primitives envelope.payload := by
  obtain ⟨hub, hverify⟩ := h
  unfold verifyEnvelope at hverify
  split_ifs at hverify with htime hhash
  exact (not_not.mp hhash).symm

/-- The fields that a reader of the signing input gets back; an absent text is read as an empty one. -/
def Agree (e e' : MessageEnvelope π) : Prop :=
  e.v = e'.v ∧ e.msgId = e'.msgId ∧ e.ts = e'.ts ∧ e.from_ = e'.from_ ∧ e.to_ = e'.to_ ∧ e.type = e'.type ∧
    orEmpty e.replyTo = orEmpty e'.replyTo ∧ e.ttlSec = e'.ttlSec ∧ e.payloadHash = e'.payloadHash ∧
    (e.v ≠ "a2a/0.1" → orEmpty e.topic = orEmpty e'.topic ∧ orEmpty e.goal = orEmpty e'.goal)

def lineBreaks (text : String) : ℕ := text.toList.count '\n'

/-- Each text field has as many line breaks in one envelope as in the other. -/
def SameBreaks (e e' : MessageEnvelope π) : Prop :=
  lineBreaks e.v = lineBreaks e'.v ∧ lineBreaks e.msgId = lineBreaks e'.msgId ∧
    lineBreaks e.from_ = lineBreaks e'.from_ ∧ lineBreaks e.to_ = lineBreaks e'.to_ ∧
    lineBreaks (orEmpty e.replyTo) = lineBreaks (orEmpty e'.replyTo) ∧
    (e.v ≠ "a2a/0.1" → lineBreaks (orEmpty e.topic) = lineBreaks (orEmpty e'.topic) ∧
      lineBreaks (orEmpty e.goal) = lineBreaks (orEmpty e'.goal))

theorem lineBreaks_eq_zero {text : String} (h : '\n' ∉ text.toList) : lineBreaks text = 0 :=
  List.count_eq_zero.mpr h

theorem lineBreaks_repr (n : ℤ) : lineBreaks n.repr = 0 := by
  refine lineBreaks_eq_zero fun h => ?_
  rcases Text.mem_int_repr h with h | h
  · exact absurd h (by decide)
  · exact absurd h (by decide)

theorem lineBreaks_type (type : MessageType) : lineBreaks type.value = 0 := by
  cases type <;> decide

theorem lineBreaks_payloadHash (hhex : Hexadecimal primitives) (payload : π) :
    lineBreaks (computePayloadHash primitives payload) = 0 := by
  refine lineBreaks_eq_zero fun h => ?_
  rw [computePayloadHash, String.toList_append, List.mem_append] at h
  rcases h with h | h
  · exact absurd h (by decide)
  · exact absurd (hhex payload _ h) (by decide)

theorem MessageType.value_injective {type type' : MessageType} (h : type.value = type'.value) : type = type' := by
  cases type <;> cases type' <;> first | rfl | exact absurd h (by decide)

theorem toList_eq_of_signingInput {e e' : MessageEnvelope π} (h : buildSigningInput e = buildSigningInput e') :
    ['\n'].intercalate ((signingParts e).map String.toList) = ['\n'].intercalate ((signingParts e').map String.toList) := by
  have htext := congrArg String.toList (String.toByteArray_inj.mp h)
  rwa [String.toList_intercalate, String.toList_intercalate] at htext

/-- Parts that agree in their line breaks and give the same text are the same parts. -/
theorem parts_eq_of_breaks {parts parts' : List String} (hbreaks : parts.map lineBreaks = parts'.map lineBreaks)
    (h : ['\n'].intercalate (parts.map String.toList) = ['\n'].intercalate (parts'.map String.toList)) :
    parts = parts' := by
  have hlists : parts.map String.toList = parts'.map String.toList :=
    Text.intercalate_inj_of_count (by rw [List.map_map, List.map_map]; exact hbreaks) h
  exact List.map_injective_iff.mpr (fun _ _ => String.toList_injective) hlists

/-- The version is read off the front: as many line breaks in it are the same version. -/
theorem version_eq_of_breaks {e e' : MessageEnvelope π} (h : buildSigningInput e = buildSigningInput e')
    (hbreaks : lineBreaks e.v = lineBreaks e'.v) : e.v = e'.v := by
  have hfront : ∀ e : MessageEnvelope π, ∃ rest : List Char,
      ['\n'].intercalate ((signingParts e).map String.toList) = e.v.toList ++ '\n' :: rest := by
    intro e
    unfold signingParts baseParts
    split_ifs
    · exact ⟨_, by simp [List.intercalate_cons_cons]; rfl⟩
    · exact ⟨_, by simp [List.intercalate_cons_cons]; rfl⟩
  obtain ⟨rest, hrest⟩ := hfront e
  obtain ⟨rest', hrest'⟩ := hfront e'
  have htexts := toList_eq_of_signingInput h
  rw [hrest, hrest'] at htexts
  have htotal := congrArg (List.count '\n') htexts
  simp only [List.count_append, List.count_cons_self] at htotal
  unfold lineBreaks at hbreaks
  exact String.toList_injective (Text.append_mark_inj htexts (by omega)).1

/-- Two accepted envelopes with one signing input agree exactly if their fields have their line breaks in the same places. -/
theorem agree_iff_sameBreaks (hhex : Hexadecimal primitives) {e e' : MessageEnvelope π} (he : Accepted primitives e)
    (he' : Accepted primitives e') (h : buildSigningInput e = buildSigningInput e') :
    Agree e e' ↔ SameBreaks e e' := by
  constructor
  · rintro ⟨hv, hmsg, -, hfrom, hto, -, hreply, -, -, hrest⟩
    refine ⟨by rw [hv], by rw [hmsg], by rw [hfrom], by rw [hto], by rw [hreply], fun hnew => ?_⟩
    obtain ⟨htopic, hgoal⟩ := hrest hnew
    rw [htopic, hgoal]
    exact ⟨rfl, rfl⟩
  · rintro ⟨hv, hmsg, hfrom, hto, hreply, hrest⟩
    have hversion := version_eq_of_breaks h hv
    have hbase : (baseParts e).map lineBreaks = (baseParts e').map lineBreaks := by
      simp only [baseParts, List.map_cons, List.map_nil, hv, hmsg, hfrom, hto, hreply, lineBreaks_repr, lineBreaks_type,
        payloadHash_of_accepted he, payloadHash_of_accepted he', lineBreaks_payloadHash hhex]
    have hparts : signingParts e = signingParts e' := by
      refine parts_eq_of_breaks ?_ (toList_eq_of_signingInput h)
      by_cases hnew : e.v ≠ "a2a/0.1"
      · obtain ⟨htopic, hgoal⟩ := hrest hnew
        rw [signingParts, signingParts, if_pos hnew, if_pos (hversion ▸ hnew), List.map_append, List.map_append, hbase]
        simp only [List.map_cons, List.map_nil, htopic, hgoal]
      · rw [signingParts, signingParts, if_neg hnew, if_neg (hversion ▸ hnew), hbase]
    have hagree : baseParts e = baseParts e' ∧
        (e.v ≠ "a2a/0.1" → orEmpty e.topic = orEmpty e'.topic ∧ orEmpty e.goal = orEmpty e'.goal) := by
      unfold signingParts at hparts
      by_cases hnew : e.v ≠ "a2a/0.1"
      · rw [if_pos hnew, if_pos (hversion ▸ hnew)] at hparts
        obtain ⟨hbaseparts, hlast⟩ := List.append_inj hparts rfl
        simp only [List.cons.injEq, and_true] at hlast
        exact ⟨hbaseparts, fun _ => hlast⟩
      · rw [if_neg hnew, if_neg (hversion ▸ hnew)] at hparts
        exact ⟨hparts, fun h => absurd h hnew⟩
    obtain ⟨hbaseparts, hlast⟩ := hagree
    simp only [baseParts, List.cons.injEq, and_true] at hbaseparts
    obtain ⟨-, hmsg, hts, hfrom, hto, htype, hreply, httl, hhash⟩ := hbaseparts
    exact ⟨hversion, hmsg, Text.int_repr_injective hts, hfrom, hto, MessageType.value_injective htype, hreply,
      Text.int_repr_injective httl, hhash, hlast⟩

/-- SHA-256 of `{}`. -/
def emptyDigest : String := "44136fa355b3678a1146ad16f7e8649e94fb4fc21fe77e8310c060f61caaff8a"

def signedAs (topic goal : String) : MessageEnvelope Unit where
  v := "a2a/0.2"
  msgId := "m1"
  ts := 1000
  from_ := "ag_a"
  to_ := "ag_b"
  type := .message
  topic := some topic
  goal := some goal
  payload := ()
  payloadHash := "sha256:" ++ emptyDigest
  sig := { keyId := "k1", value := "sig" }

/-- One signature was made, of one envelope. -/
def oneSignature : Primitives Unit where
  payloadDigest _ := emptyDigest
  verifies pubkey bytes value := pubkey = "pk" && value = "sig" && bytes = buildSigningInput (signedAs "plan\nB" "go")

theorem signingInput_moved : buildSigningInput (signedAs "plan\nB" "go") = buildSigningInput (signedAs "plan" "B\ngo") := by
  have hparts : ∀ topic goal, signingParts (signedAs topic goal) = baseParts (signedAs "" "") ++ [topic, goal] :=
    fun topic goal => if_pos (show "a2a/0.2" ≠ "a2a/0.1" by decide)
  have hlast : "plan\nB" ++ "\n" ++ "go" = "plan" ++ "\n" ++ "B\ngo" := by decide
  simp only [buildSigningInput, hparts, String.intercalate_append_of_ne_nil (List.cons_ne_nil _ _) (List.cons_ne_nil _ _),
    baseParts, String.intercalate_cons_cons, String.intercalate_singleton, hlast]

theorem accepted_of_input {topic goal : String}
    (h : buildSigningInput (signedAs "plan\nB" "go") = buildSigningInput (signedAs topic goal)) :
    Accepted oneSignature (signedAs topic goal) := by
  refine ⟨{ time := 1000, keys := [{ keyId := "k1", agentId := "ag_a", pubkey := "ed25519:pk" }] }, ?_⟩
  have hpubkey : String.ofList ("ed25519:pk".toList.drop 8) = "pk" := by decide
  have hverify : verifyEnvelopeSig oneSignature (signedAs topic goal) "pk" = true := by
    simp only [verifyEnvelopeSig, oneSignature, ← h, decide_true, Bool.true_and, Bool.and_true, Bool.or_eq_true]
    exact Or.inr rfl
  have htime : checkTimestamp 1000 (signedAs topic goal).ts = true := rfl
  have hhash : computePayloadHash oneSignature (signedAs topic goal).payload = (signedAs topic goal).payloadHash := rfl
  have hkeys : ([{ keyId := "k1", agentId := "ag_a", pubkey := "ed25519:pk" }] : List SigningKey).find?
      (fun key => key.keyId = (signedAs topic goal).sig.keyId && key.active)
        = some { keyId := "k1", agentId := "ag_a", pubkey := "ed25519:pk" } := rfl
  have howner : "ag_a" = (signedAs topic goal).from_ := rfl
  simp only [verifyEnvelope, htime, hhash, hkeys, hpubkey, hverify, ← howner, not_true_eq_false, ne_eq, if_false]

/-- One signature authenticates two envelopes with other topics and goals. -/
theorem one_input_two_envelopes :
    ¬ ∀ e e' : MessageEnvelope Unit, Accepted oneSignature e → Accepted oneSignature e' →
      buildSigningInput e = buildSigningInput e' → Agree e e' := by
  intro h
  have hagree := h _ _ (accepted_of_input rfl) (accepted_of_input signingInput_moved) signingInput_moved
  exact absurd (hagree.2.2.2.2.2.2.2.2.2 (by decide)).1 (by decide)

theorem hexadecimal_oneSignature : Hexadecimal oneSignature := by
  intro payload
  have hall : emptyDigest.toList.all (· ∈ "0123456789abcdef".toList) := by decide +kernel
  exact fun c hc => of_decide_eq_true (List.all_eq_true.mp hall c hc)

theorem agree_iff_sameBreaks_moved : ¬ SameBreaks (signedAs "plan\nB" "go") (signedAs "plan" "B\ngo") := by
  intro h
  have hagree := (agree_iff_sameBreaks hexadecimal_oneSignature (accepted_of_input rfl)
    (accepted_of_input signingInput_moved) signingInput_moved).mpr h
  exact absurd (hagree.2.2.2.2.2.2.2.2.2 (by decide)).1 (by decide)

end BotCord.Protocol

import BotCord.Foundation.PlainObject
import BotCord.Protocol.RoundTrip

/-!
# Working memory

`packages/daemon/src/working-memory.ts`: the notes of one agent, from the file and back. The file is kept as the value that is parsed from it; what `JSON.stringify` writes is read back as `roundTrip` says. The order of the names in a language is a parameter, and so is the digest of the version.
-/

namespace BotCord.Memory

open Protocol

abbrev Sections := PlainObject JsString JsString

structure WorkingMemory where
  goal : Option JsString := none
  sections : Sections := {}
  updatedAt : JsString := []

def MAX_SECTION_CHARS : ℕ := 10000
def MAX_GOAL_CHARS : ℕ := 500
def MAX_TOTAL_CHARS : ℕ := 20000
def DEFAULT_SECTION : JsString := units "notes"

def isDigit (c : CodeUnit) : Bool := 0x30 ≤ c && c ≤ 0x39

def isNameUnit (c : CodeUnit) : Bool := 0x41 ≤ c && c ≤ 0x5A || 0x61 ≤ c && c ≤ 0x7A || isDigit c || c = 0x5F

/-- `VALID_SECTION_KEY_RE` -/
def validSectionKey (name : JsString) : Bool := name ≠ [] && name.all isNameUnit

def isWhite (c : CodeUnit) : Bool :=
  0x09 ≤ c && c ≤ 0x0D || 0x2000 ≤ c && c ≤ 0x200A ||
    c ∈ ([0x20, 0xA0, 0x1680, 0x2028, 0x2029, 0x202F, 0x205F, 0x3000, 0xFEFF] : List CodeUnit)

def trim (name : JsString) : JsString := ((name.dropWhile isWhite).reverse.dropWhile isWhite).reverse

def arrayIndex (key : JsString) : Option ℕ :=
  let n := key.foldl (fun n c => n * 10 + (c.val - 0x30)) 0
  if key ≠ [] ∧ key.all isDigit ∧ (key.head? = some 0x30 → key.length = 1) ∧ n < 2 ^ 32 - 1 then some n else none

def proto : JsString := units "__proto__"

/-- `Object.prototype`: a string that is assigned to `__proto__` is no prototype, and is ignored. -/
def objectPrototype : Prototype JsString where
  index := arrayIndex
  ignores key := key = proto
  inherits key := inheritedNames.any (units · = key)

def two : Double := { Double.zero with exponent := ⟨1024, by decide⟩ }

/-- The own member of a parsed object. -/
def member (members : List (JsString × Value)) (key : String) : Value :=
  ((members.find? (·.1 = units key)).map Prod.snd).getD .undefined

def asString : Value → Option JsString
  | .string s => some s
  | _ => none

def sanitizeSections : Value → Sections
  | .object members =>
    PlainObject.assignAll objectPrototype {} (members.filterMap fun m =>
      if validSectionKey m.1 then (asString m.2).map (m.1, ·) else none)
  | _ => {}

def isNumber (d : Double) : Value → Bool
  | .number n => n = d
  | _ => false

/-- `typeof value === "object"`, and not null. -/
def isObject : Value → Bool
  | .object _ | .array _ => true
  | _ => false

def normalize : Value → Option WorkingMemory
  | .object members =>
    if isNumber two (member members "version") && isObject (member members "sections") then
      some {
        goal := asString (member members "goal")
        sections := sanitizeSections (member members "sections")
        updatedAt := (asString (member members "updatedAt")).getD [] }
    else if isNumber Double.one (member members "version") then
      (asString (member members "content")).map fun content => {
        sections := if content = [] then {} else PlainObject.define objectPrototype {} DEFAULT_SECTION content
        updatedAt := (asString (member members "updatedAt")).getD [] }
    else none
  | _ => none

abbrev File := Option Value

def readWorkingMemory (file : File) : Option WorkingMemory := file.bind normalize

def WorkingMemory.toValue (m : WorkingMemory) : Value :=
  .object [(units "version", .number two), (units "goal", (m.goal.map Value.string).getD .undefined),
    (units "sections", .object (m.sections.rows.map fun s => (s.1, .string s.2))), (units "updatedAt", .string m.updatedAt)]

def writeWorkingMemory (m : WorkingMemory) : File := roundTrip m.toValue

structure MemoryUpdate where
  goal : Option JsString := none
  (section? : Option JsString := none)
  content : Option JsString := none

structure SetSectionResult where
  memory : WorkingMemory
  totalChars : ℕ
  sectionPresent : Bool

inductive UpdateError
  | nothingProvided
  | goalTooLong
  | invalidSectionName
  | contentTooLong (sectionName : JsString)
  | totalTooLong (totalChars : ℕ)

def UpdateError.message : UpdateError → JsString
  | .nothingProvided => units "updateWorkingMemory: must provide 'goal' or 'content'"
  | .goalTooLong => units "goal exceeds 500 characters"
  | .invalidSectionName => units "section name must contain only letters, digits, and underscores"
  | .contentTooLong sectionName => units "content exceeds 10000 characters for section '" ++ sectionName ++ units "'"
  | .totalTooLong totalChars =>
    units ("total working memory exceeds 20000 characters (current: " ++ toString totalChars ++ ")")

namespace MemoryUpdate

variable (u : MemoryUpdate)

def sectionName : JsString := trim (u.section?.getD DEFAULT_SECTION)

/-- The checks before the file is read. -/
def check : Except UpdateError Unit := do
  if u.goal = none ∧ u.content = none then throw .nothingProvided
  if u.goal.any (MAX_GOAL_CHARS < ·.length) then throw .goalTooLong
  if u.content.isSome ∧ ¬ validSectionKey u.sectionName then throw .invalidSectionName
  if u.content.any (MAX_SECTION_CHARS < ·.length) then throw (.contentTooLong u.sectionName)

def applyGoal (goal : Option JsString) : Option JsString :=
  match u.goal with
  | some goal => if goal = [] then none else some goal
  | none => goal

def applySection (sections : Sections) : Sections :=
  match u.content with
  | some content =>
    if content = [] then PlainObject.delete sections u.sectionName
    else PlainObject.assign objectPrototype sections u.sectionName content
  | none => sections

end MemoryUpdate

def WorkingMemory.totalChars (m : WorkingMemory) : ℕ :=
  (m.goal.map List.length).getD 0 + (m.sections.rows.map fun s => s.2.length).sum

/-- The result of the call, and the file it leaves. -/
def updateWorkingMemory (file : File) (u : MemoryUpdate) (now : JsString) :
    Except UpdateError SetSectionResult × File :=
  match u.check with
  | .error e => (.error e, file)
  | .ok () =>
    let existing := (readWorkingMemory file).getD {}
    let memory : WorkingMemory :=
      { goal := u.applyGoal existing.goal, sections := u.applySection existing.sections, updatedAt := now }
    if MAX_TOTAL_CHARS < memory.totalChars then (.error (.totalTooLong memory.totalChars), file)
    else
      (.ok {
          memory
          totalChars := memory.totalChars
          sectionPresent := match u.content with
            | some content => content ≠ []
            | none => PlainObject.contains objectPrototype memory.sections u.sectionName },
        writeWorkingMemory memory)

def clearWorkingMemory (now : JsString) : File := writeWorkingMemory { updatedAt := now }

/-- `Object.entries(sections).sort(([a], [b]) => a.localeCompare(b))` -/
def sortedEntries (localeCompare : JsString → JsString → ℤ) (sections : Sections) : List (JsString × JsString) :=
  sections.rows.insertionSort fun a b => localeCompare a.1 b.1 ≤ 0

def memberText (s : JsString × JsString) : JsString := quote s.1 ++ [colon] ++ quote s.2

def canonicalText (localeCompare : JsString → JsString → ℤ) (memory : Option WorkingMemory) : JsString :=
  let sections := PlainObject.assignAll objectPrototype {}
    (sortedEntries localeCompare ((memory.map WorkingMemory.sections).getD {}))
  units "\x7b\"version\":2,\"goal\":" ++ (((memory.bind WorkingMemory.goal).map quote).getD (units "null")) ++
    units ",\"sections\":\x7b" ++ [comma].intercalate (sections.rows.map memberText) ++ units "\x7d\x7d"

/-- `digest`: the first sixteen hexadecimal digits of SHA-256. -/
def workingMemoryVersion (localeCompare : JsString → JsString → ℤ) (digest : JsString → JsString)
    (memory : Option WorkingMemory) : JsString :=
  units "wm-sha256:" ++ digest (canonicalText localeCompare memory)

end BotCord.Memory

import BotCord.Bindings.Exclusive
import BotCord.Control.Replay
import BotCord.Conversations.Settled
import BotCord.Dashboard.Shown
import BotCord.Gateway.Acknowledge
import BotCord.Gateway.Authority
import BotCord.Gateway.Isolation
import BotCord.Gateway.Parking
import BotCord.Gateway.Rotation
import BotCord.Gateway.Provenance
import BotCord.Gateway.Superseded
import BotCord.Ingress.Redelivery
import BotCord.Invites.Admission
import BotCord.Kb.Ownership
import BotCord.Kb.Summaries
import BotCord.Presence.Observer
import BotCord.Presence.Version
import BotCord.Protocol.GatewayText
import BotCord.Protocol.SigningInput
import BotCord.Rooms.Seated
import BotCord.Schedules.Edits
import BotCord.Sends.Cost
import BotCord.Spaces.Owners
import BotCord.Stripe.CreditedOnce
import BotCord.Subscriptions.Anchor
import BotCord.Subscriptions.Periods
import BotCord.Usage.Held
import BotCord.Usage.Rounding
import BotCord.Wallet.Invariant
import BotCord.Wallet.TransferOnce
import BotCord.Ingress.Adapters
import BotCord.Policy.Pushed
import BotCord.Admission.Agree
import BotCord.Contacts.Mutual
import BotCord.Memory.Faithful
import BotCord.Messages.OneMessage
import BotCord.Messages.Paging
import BotCord.Personal.Gated
import BotCord.Personal.OneOwner
import BotCord.Personal.Redeemed
import BotCord.RoomCache.GapFree
import BotCord.Delivery.Lifecycle
import BotCord.Devices.Redeemed
import BotCord.Grants.Balanced
import BotCord.Keys.Lifecycle
import BotCord.Keys.Lockout
import BotCord.Onboarding.Honoured
import BotCord.Removal.Removed
import BotCord.Topics.Agreement
import BotCord.Unbinding.Settled
import BotCord.Kb.Kinds
import BotCord.Schedules.NextFire
import BotCord.Inbox.RoomAccess
import BotCord.Requests.Decided
import BotCord.RoomSends.OneMessage
import BotCord.Cloud.Secrets

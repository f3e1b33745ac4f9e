import Phrasebook.Language.Interchange
import Phrasebook.Session.Step
import Phrasebook.Proofs.Evaluation.Correspondence
import Phrasebook.Proofs.Evaluation.Restoration
import Phrasebook.Proofs.Evaluation.Guards
import Phrasebook.Proofs.Session.Loading
import Phrasebook.Proofs.Session.Walk
import Phrasebook.Proofs.Session.Upkeep
import Phrasebook.Proofs.Session.Stalling
import Phrasebook.Proofs.Session.Fallback
import Phrasebook.Proofs.Session.Uncached
import Phrasebook.Proofs.Session.Caching
import Phrasebook.Proofs.Session.Span
import Phrasebook.Proofs.Evaluation.StackUse
import Phrasebook.Proofs.Session.Gain
import Phrasebook.Proofs.Session.Settling
import Phrasebook.Proofs.Session.Batch
import Phrasebook.Proofs.Json.RoundTrip
import Phrasebook.Proofs.Node.RoundTrip
import Phrasebook.Proofs.Resource.Interchange
import Phrasebook.Proofs.Node.Grammar
import Phrasebook.Proofs.Node.Written
import Phrasebook.Proofs.Node.Splitting
import Phrasebook.Proofs.Resource.Escaping
import Phrasebook.Proofs.Resource.WrittenLines
import Phrasebook.Proofs.Resource.Drafting
import Phrasebook.Proofs.Resource.Properties
import Phrasebook.Proofs.Node.Rendering
import Phrasebook.Proofs.Evaluation.Reach
import Phrasebook.Proofs.Evaluation.BareText
import Phrasebook.Proofs.Evaluation.Trail
import Phrasebook.Proofs.Evaluation.Disguise
import Phrasebook.Proofs.Session.Entity
import Phrasebook.Proofs.Session.Asking
import Phrasebook.Proofs.Session.Repetition
import Phrasebook.Proofs.Session.Slots
import Phrasebook.Proofs.Session.Union
import Phrasebook.Proofs.Evaluation.DepthLimit
import Phrasebook.Proofs.Negotiation.Chain
import Phrasebook.Proofs.Session.Contents
import Phrasebook.Proofs.Session.Remarks
import Phrasebook.Proofs.Session.Lifecycle
import Phrasebook.Proofs.Evaluation.Assembly
import Phrasebook.Proofs.Evaluation.Layers
import Phrasebook.Proofs.Resource.Literal
import Phrasebook.Proofs.Evaluation.Cycles
import Phrasebook.Proofs.Evaluation.Relabelling
import Phrasebook.Proofs.Session.AttributeIds
import Phrasebook.Proofs.Evaluation.Invariant
import Phrasebook.Proofs.Decimal.Extent
import Phrasebook.Proofs.Decimal.Whole
import Phrasebook.Proofs.Evaluation.Expansion
import Phrasebook.Proofs.Evaluation.Isolation
import Phrasebook.Proofs.Evaluation.Descent
import Phrasebook.Proofs.Resource.Fillings
import Phrasebook.Proofs.Resource.Histories
import Phrasebook.Proofs.Resource.Selectors
import Phrasebook.Proofs.Text.Pieces
import Phrasebook.Proofs.Resource.Blocks
import Phrasebook.Proofs.Resource.Offences
import Phrasebook.Proofs.Resource.Interleaving
import Phrasebook.Proofs.Resource.Account
import Phrasebook.Proofs.Resource.Redefinition
import Phrasebook.Proofs.Resource.Continuation
import Phrasebook.Proofs.Resource.Renumbering
import Phrasebook.Proofs.Resource.Comments
import Phrasebook.Proofs.Session.DerivedSlots
import Phrasebook.Proofs.Session.FailureReports
import Phrasebook.Proofs.Negotiation.Spelling
import Phrasebook.Proofs.Negotiation.Stability
import Phrasebook.Proofs.Pseudo.Markup
import Phrasebook.Proofs.Resource.Partition
import Phrasebook.Proofs.Resource.Unescaping
import Phrasebook.Proofs.Text.EditDistance
import Phrasebook.Proofs.Text.ByteOrder
import Phrasebook.Proofs.Evaluation.Nearest
import Phrasebook.Proofs.Pseudo.Recovery

import PromptScript.Main
import PromptScript.Proofs.Agent.Argument
import PromptScript.Proofs.Expr.Equality
import PromptScript.Proofs.Expr.RangeUse
import PromptScript.Proofs.Render.Chain
import PromptScript.Proofs.Render.Cycle
import PromptScript.Proofs.Render.Lookup
import PromptScript.Proofs.Render.SharedCache
import PromptScript.Proofs.Render.Termination
import PromptScript.Proofs.Session.Assigned
import PromptScript.Proofs.Session.Composition
import PromptScript.Proofs.Session.EventLog
import PromptScript.Proofs.Session.Exchange
import PromptScript.Proofs.Session.Failure
import PromptScript.Proofs.Session.Lifecycle
import PromptScript.Proofs.Session.LogLine
import PromptScript.Proofs.Session.Prose
import PromptScript.Proofs.Session.Retry
import PromptScript.Proofs.Session.Saving
import PromptScript.Proofs.Session.Store
import PromptScript.Proofs.Session.Strict
import PromptScript.Proofs.Session.Termination
import PromptScript.Proofs.Source.BlockText
import PromptScript.Proofs.Source.Bytes.Bracket
import PromptScript.Proofs.Source.Bytes.Template
import PromptScript.Proofs.Source.Embedding
import PromptScript.Proofs.Source.Header
import PromptScript.Proofs.Source.Indentation
import PromptScript.Proofs.Source.LineEnding
import PromptScript.Proofs.Source.Margin
import PromptScript.Proofs.Source.Name
import PromptScript.Proofs.Source.Nesting
import PromptScript.Proofs.Source.Parameter
import PromptScript.Proofs.Source.PhysicalLine
import PromptScript.Proofs.Source.Printing
import PromptScript.Proofs.Source.Segment
import PromptScript.Proofs.Source.WellFormed

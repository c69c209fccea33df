import LuaGlue.Files.Tree
import LuaGlue.Main
import LuaGlue.Proofs.Emission.Totality
import LuaGlue.Proofs.Inheritance.Cycles
import LuaGlue.Proofs.Overload.Conditions
import LuaGlue.Proofs.Naming.Tags
import LuaGlue.Proofs.Selection.Sound
import LuaGlue.Proofs.Selection.Runs
import LuaGlue.Proofs.Selection.Forward
import LuaGlue.Proofs.Selection.Settled
import LuaGlue.Proofs.Inheritance.Convertible
import LuaGlue.Proofs.Emission.Symbols
import LuaGlue.Proofs.Emission.Uses
import LuaGlue.Proofs.Emission.Parts
import LuaGlue.Proofs.Emission.Closed
import LuaGlue.Proofs.Signatures.Kept
import LuaGlue.Proofs.Isolation.Frame
import LuaGlue.Proofs.Isolation.Beside
import LuaGlue.Proofs.Isolation.Steps
import LuaGlue.Proofs.Isolation.Settling
import LuaGlue.Proofs.Isolation.Binding
import LuaGlue.Proofs.Isolation.Isolated
import LuaGlue.Proofs.Isolation.States
import LuaGlue.Proofs.Selection.Learned
import LuaGlue.Proofs.Functions.Offers
import LuaGlue.Proofs.Functions.Ledger
import LuaGlue.Proofs.Functions.Primaries
import LuaGlue.Proofs.Functions.Wrapped
import LuaGlue.Proofs.Resolution.Lookups
import LuaGlue.Proofs.Resolution.Resolved
import LuaGlue.Proofs.Attachment.Requested
import LuaGlue.Proofs.Attachment.Waiting
import LuaGlue.Proofs.Attachment.Members
import LuaGlue.Proofs.Attachment.Attached
import LuaGlue.Proofs.Attachment.Lost
import LuaGlue.Proofs.Setup.Published
import LuaGlue.Proofs.Setup.Order
import LuaGlue.Proofs.Lua.Pushing
import LuaGlue.Proofs.ClassStore
import LuaGlue.Proofs.Selection.Enrolled
import LuaGlue.Proofs.Isolation.Duplicate
import LuaGlue.Proofs.Retrieval.Checked
import LuaGlue.Proofs.Inheritance.Reachable
import LuaGlue.Proofs.Selection.Remarks
import LuaGlue.Proofs.Functions.Repeated
import LuaGlue.Proofs.Naming.Generated
import LuaGlue.Proofs.Inheritance.Descendants
import LuaGlue.Proofs.Members.Metamethods
import LuaGlue.Proofs.Members.MemberMap
import LuaGlue.Proofs.Retrieval.Layouts
import LuaGlue.Proofs.Selection.Reordered
import LuaGlue.Proofs.Overload.Saved
import LuaGlue.Proofs.Signatures.Reread
import LuaGlue.Proofs.Members.Wrappers
import LuaGlue.Proofs.Signatures.Uses
import LuaGlue.Proofs.Signatures.Captured
import LuaGlue.Proofs.Retrieval.Locals
import LuaGlue.Proofs.Functions.Proposals
import LuaGlue.Proofs.Functions.Distinct
import LuaGlue.Proofs.Spelling.Innermost
import LuaGlue.Proofs.Spelling.Trailing
import LuaGlue.Proofs.Spelling.Templates
import LuaGlue.Proofs.Annotations
import LuaGlue.Proofs.Functions.Moved
import LuaGlue.Proofs.Signatures.Elements
import LuaGlue.Proofs.Naming.Spellings
import LuaGlue.Proofs.Selection.Asked
import LuaGlue.Proofs.Selection.ClassFacts
import LuaGlue.Proofs.Selection.Declared
import LuaGlue.Proofs.Selection.Reached

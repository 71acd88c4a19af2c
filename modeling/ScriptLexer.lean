import ScriptLexer.Main
import ScriptLexer.Session
import ScriptLexer.Proofs.Partition
import ScriptLexer.Proofs.Printing
import ScriptLexer.Proofs.Session.Totality
import ScriptLexer.Proofs.Boundary
import ScriptLexer.Proofs.Session.Turns
import ScriptLexer.Proofs.Places
import ScriptLexer.Proofs.Recovery
import ScriptLexer.Proofs.Joining
import ScriptLexer.Proofs.Stability
import ScriptLexer.Proofs.CommandLine.Prompt
import ScriptLexer.Proofs.CommandLine.Outcome
import ScriptLexer.Proofs.CommandLine.JsonMode
import ScriptLexer.Proofs.Utf8
import ScriptLexer.Proofs.Utf8.WellFormed
import ScriptLexer.Proofs.CommandLine.Script
import ScriptLexer.Proofs.Gaps
import ScriptLexer.Proofs.Spacing
import ScriptLexer.Proofs.Returns
import ScriptLexer.Proofs.EntryPoints
import ScriptLexer.Proofs.Session.Rescan
import ScriptLexer.Proofs.TokenForms
import ScriptLexer.Proofs.Session.Frame
import ScriptLexer.Proofs.Utf8.Malformed
import ScriptLexer.Proofs.CommandLine.ScriptBytes
import ScriptLexer.Proofs.CommandLine.Switches
import ScriptLexer.Proofs.Double.Nearest
import ScriptLexer.Proofs.Session.Numbers

import ClassAudit.Lookup.FileTree
import ClassAudit.Main
import ClassAudit.Session
import ClassAudit.Written.Class
import ClassAudit.Proofs.Pool.Grammar
import ClassAudit.Proofs.Attribute.Grammar
import ClassAudit.Proofs.Layout.Grammar
import ClassAudit.Proofs.Reader.Lookahead
import ClassAudit.Proofs.Layout.FirstFault
import ClassAudit.Proofs.Pool.Outcomes
import ClassAudit.Proofs.Layout.Satisfiable
import ClassAudit.Proofs.Layout.Names
import ClassAudit.Proofs.Layout.Entries
import ClassAudit.Proofs.Attribute.FaultyHeader
import ClassAudit.Proofs.Session.Exhaustion
import ClassAudit.Proofs.Layout.Trace
import ClassAudit.Proofs.Command.Verdict
import ClassAudit.Proofs.Command.FirstFile
import ClassAudit.Proofs.Layout.Checks
import ClassAudit.Proofs.Layout.Faults
import ClassAudit.Proofs.Reader.Splitting
import ClassAudit.Proofs.Text.Encodings
import ClassAudit.Proofs.Pool.TextEntry
import ClassAudit.Proofs.Reader.Truncation
import ClassAudit.Proofs.Pool.Truncation
import ClassAudit.Proofs.Attribute.Truncation
import ClassAudit.Proofs.Layout.Truncation
import ClassAudit.Proofs.Pool.LogLines
import ClassAudit.Proofs.Layout.MismatchText
import ClassAudit.Proofs.Lookup.FirstRoot
import ClassAudit.Proofs.Lookup.Confinement
import ClassAudit.Proofs.Class.Names

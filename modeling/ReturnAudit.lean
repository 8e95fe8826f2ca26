import ReturnAudit.Archive.Crc32
import ReturnAudit.Archive.Inflate
import ReturnAudit.Archive.Zip
import ReturnAudit.Assembly.Description
import ReturnAudit.Assembly.Document
import ReturnAudit.Assembly.Encode
import ReturnAudit.Assembly.Line
import ReturnAudit.Assembly.PoolBuilder
import ReturnAudit.Audit
import ReturnAudit.ClassFile.Annotation
import ReturnAudit.ClassFile.Attribute
import ReturnAudit.ClassFile.Class
import ReturnAudit.ClassFile.Code
import ReturnAudit.ClassFile.Constant
import ReturnAudit.ClassFile.Cursor
import ReturnAudit.ClassFile.Descriptor
import ReturnAudit.ClassFile.Fault
import ReturnAudit.ClassFile.Instruction
import ReturnAudit.ClassFile.Opcode
import ReturnAudit.ClassFile.OpcodeSet
import ReturnAudit.ClassPath.FileTree
import ReturnAudit.ClassPath.Load
import ReturnAudit.ClassPath.Workspace
import ReturnAudit.Command.Completion
import ReturnAudit.Command.Flag
import ReturnAudit.Command.Help
import ReturnAudit.Command.Options
import ReturnAudit.Command.Run
import ReturnAudit.Config
import ReturnAudit.Detector
import ReturnAudit.Digest.HighwayHash
import ReturnAudit.Hierarchy
import ReturnAudit.Main
import ReturnAudit.MethodFacts
import ReturnAudit.Obligation.Basic
import ReturnAudit.Obligation.Catalog
import ReturnAudit.Obligation.Resolve
import ReturnAudit.Regex.Bracket
import ReturnAudit.Regex.Building
import ReturnAudit.Regex.CharSet
import ReturnAudit.Regex.Choice
import ReturnAudit.Regex.Escape
import ReturnAudit.Regex.Expr
import ReturnAudit.Regex.Fault
import ReturnAudit.Regex.Parse
import ReturnAudit.Regex.Search
import ReturnAudit.Report.Clock
import ReturnAudit.Report.Expectation
import ReturnAudit.Report.Finding
import ReturnAudit.Report.Json
import ReturnAudit.Report.Render
import ReturnAudit.ReturnCheck.Automaton
import ReturnAudit.ReturnCheck.Visit
import ReturnAudit.Scenario.Case
import ReturnAudit.Scenario.Expected
import ReturnAudit.Scenario.Run
import ReturnAudit.Session
import ReturnAudit.Suppression.Checker
import ReturnAudit.Suppression.Mark
import ReturnAudit.Suppression.Rule
import ReturnAudit.Symbol
import ReturnAudit.Text.Blank
import ReturnAudit.Text.Bytes
import ReturnAudit.Text.CaseOrbit
import ReturnAudit.Text.Category
import ReturnAudit.Text.CodePoints
import ReturnAudit.Text.CommaList
import ReturnAudit.Text.Double
import ReturnAudit.Text.Numeral
import ReturnAudit.Text.Quoted
import ReturnAudit.Text.Script
import ReturnAudit.Text.Sections
import ReturnAudit.Text.Utf8
import ReturnAudit.Yaml.Compose
import ReturnAudit.Yaml.Cursor
import ReturnAudit.Yaml.Decode
import ReturnAudit.Yaml.Directive
import ReturnAudit.Yaml.Node
import ReturnAudit.Yaml.Resolve
import ReturnAudit.Yaml.Scalar
import ReturnAudit.Yaml.Scanner
import ReturnAudit.Yaml.Source
import ReturnAudit.Yaml.Timestamp
import ReturnAudit.Yaml.Token
import ReturnAudit.Proofs.ReturnCheck.Adjacency
import ReturnAudit.Proofs.Session.Tracking
import ReturnAudit.Proofs.ReturnCheck.Findings
import ReturnAudit.Proofs.ClassFile.OpcodeMembers
import ReturnAudit.Proofs.ClassFile.OpcodeFinsets
import ReturnAudit.Proofs.ReturnCheck.Exactness
import ReturnAudit.Proofs.ReturnCheck.Positions
import ReturnAudit.Proofs.Session.Transparency
import ReturnAudit.Proofs.Session.Instances
import ReturnAudit.Proofs.Session.Priorities
import ReturnAudit.Proofs.Report.FindingOrder
import ReturnAudit.Proofs.Report.InstanceIdentity
import ReturnAudit.Proofs.Scenario.Matching
import ReturnAudit.Proofs.Scenario.Reordering
import ReturnAudit.Proofs.Audit.Outcome
import ReturnAudit.Proofs.Hierarchy.InterfaceLevels
import ReturnAudit.Proofs.Hierarchy.Ancestors
import ReturnAudit.Proofs.Hierarchy.Locality
import ReturnAudit.Proofs.Audit.OrderIndependence
import ReturnAudit.Proofs.ClassFile.PoolLayout
import ReturnAudit.Proofs.Assembly.PoolGrowth
import ReturnAudit.Proofs.Assembly.FinishedPool
import ReturnAudit.Proofs.Assembly.OperandTexts
import ReturnAudit.Proofs.Assembly.OperandForms
import ReturnAudit.Proofs.Assembly.Instructions
import ReturnAudit.Proofs.Assembly.Writing
import ReturnAudit.Proofs.Assembly.AnnotationRoundTrip
import ReturnAudit.Proofs.Assembly.CodeRoundTrip
import ReturnAudit.Proofs.Assembly.MemberRoundTrip
import ReturnAudit.Proofs.Assembly.RoundTrip
import ReturnAudit.Proofs.Assembly.SymbolicOperands
import ReturnAudit.Proofs.ClassFile.Extent
import ReturnAudit.Proofs.ClassFile.Decoding
import ReturnAudit.Proofs.ClassFile.CodeCuts
import ReturnAudit.Proofs.ClassFile.InstructionLength
import ReturnAudit.Proofs.Assembly.Truncation
import ReturnAudit.Proofs.Audit.Summary
import ReturnAudit.Proofs.Audit.Accounting
import ReturnAudit.Proofs.Audit.Selection
import ReturnAudit.Proofs.Obligation.Widening
import ReturnAudit.Proofs.Obligation.Declarations
import ReturnAudit.Proofs.Audit.RepeatedNames
import ReturnAudit.Proofs.Audit.Widening
import ReturnAudit.Proofs.Assembly.OperandNumbers
import ReturnAudit.Proofs.Text.Cuts
import ReturnAudit.Proofs.ClassFile.DecodedBodies
import ReturnAudit.Proofs.Assembly.PoolRequests
import ReturnAudit.Proofs.Suppression.Coverage
import ReturnAudit.Proofs.Suppression.Histories
import ReturnAudit.Proofs.Regex.Language
import ReturnAudit.Proofs.Regex.Searching
import ReturnAudit.Proofs.Regex.Growth
import ReturnAudit.Proofs.Regex.Locality
import ReturnAudit.Proofs.Regex.Leftovers
import ReturnAudit.Proofs.Regex.Wrapping
import ReturnAudit.Proofs.Suppression.WholeMatch
import ReturnAudit.Proofs.ClassFile.PoolLookups
import ReturnAudit.Proofs.ClassFile.OperandResolution
import ReturnAudit.Proofs.ClassFile.TakenBytes
import ReturnAudit.Proofs.ClassFile.PoolCanonicity
import ReturnAudit.Proofs.ClassFile.ElementDepth
import ReturnAudit.Proofs.ClassFile.ElementValues
import ReturnAudit.Proofs.Hierarchy.Bodies
import ReturnAudit.Proofs.ReturnCheck.ExceptionTables
import ReturnAudit.Proofs.ClassFile.MethodTypes
import ReturnAudit.Proofs.ClassFile.LineLookup
import ReturnAudit.Proofs.ClassFile.LineTables
import ReturnAudit.Proofs.Hierarchy.FirstOfEachName
import ReturnAudit.Proofs.ClassPath.Loading
import ReturnAudit.Proofs.ClassPath.FileNames
import ReturnAudit.Proofs.ClassPath.Additions
import ReturnAudit.Proofs.ClassPath.Sites
import ReturnAudit.Proofs.ClassPath.Shadowing

import DefinitionLowering.CodeObject
import DefinitionLowering.Compilation
import DefinitionLowering.Constant
import DefinitionLowering.Dialect
import DefinitionLowering.Dialect.Json
import DefinitionLowering.IR.Body
import DefinitionLowering.IR.Code
import DefinitionLowering.IR.Fault
import DefinitionLowering.IR.Json
import DefinitionLowering.IR.Listing
import DefinitionLowering.IR.Release
import DefinitionLowering.IR.Store
import DefinitionLowering.Json
import DefinitionLowering.Kind
import DefinitionLowering.Location
import DefinitionLowering.Lowering.Basic
import DefinitionLowering.Lowering.Callable
import DefinitionLowering.Lowering.Decorators
import DefinitionLowering.Lowering.Definition
import DefinitionLowering.Lowering.Destructuring
import DefinitionLowering.Lowering.Expr
import DefinitionLowering.Lowering.Scope
import DefinitionLowering.Lowering.Stmt
import DefinitionLowering.Parameters
import DefinitionLowering.PrivateName
import DefinitionLowering.Proofs.Actions
import DefinitionLowering.Proofs.Adjoining
import DefinitionLowering.Proofs.Bindings
import DefinitionLowering.Proofs.BodyTree
import DefinitionLowering.Proofs.Bookkeeping
import DefinitionLowering.Proofs.Callees
import DefinitionLowering.Proofs.Captures
import DefinitionLowering.Proofs.Classification
import DefinitionLowering.Proofs.Closed
import DefinitionLowering.Proofs.CodeObjects
import DefinitionLowering.Proofs.CodeSites
import DefinitionLowering.Proofs.Completion
import DefinitionLowering.Proofs.Contents
import DefinitionLowering.Proofs.ControlFlow
import DefinitionLowering.Proofs.Creations
import DefinitionLowering.Proofs.Declaring
import DefinitionLowering.Proofs.Encoding
import DefinitionLowering.Proofs.Entering
import DefinitionLowering.Proofs.Evaluations
import DefinitionLowering.Proofs.Executions
import DefinitionLowering.Proofs.Generators
import DefinitionLowering.Proofs.Grafting
import DefinitionLowering.Proofs.Growth
import DefinitionLowering.Proofs.Hygiene
import DefinitionLowering.Proofs.Identifiers
import DefinitionLowering.Proofs.ImplicitDecorators
import DefinitionLowering.Proofs.Indentation
import DefinitionLowering.Proofs.Independence
import DefinitionLowering.Proofs.Injection
import DefinitionLowering.Proofs.Lookup
import DefinitionLowering.Proofs.Machine
import DefinitionLowering.Proofs.Making
import DefinitionLowering.Proofs.Mirroring
import DefinitionLowering.Proofs.Naming
import DefinitionLowering.Proofs.Occurrences
import DefinitionLowering.Proofs.Opening
import DefinitionLowering.Proofs.Operations
import DefinitionLowering.Proofs.Origins
import DefinitionLowering.Proofs.Outcome
import DefinitionLowering.Proofs.Outlines
import DefinitionLowering.Proofs.ParameterLaws
import DefinitionLowering.Proofs.ParameterModel
import DefinitionLowering.Proofs.Passes
import DefinitionLowering.Proofs.Paths
import DefinitionLowering.Proofs.Performing
import DefinitionLowering.Proofs.Prepared
import DefinitionLowering.Proofs.Preservation
import DefinitionLowering.Proofs.Providers
import DefinitionLowering.Proofs.Reached
import DefinitionLowering.Proofs.Readings
import DefinitionLowering.Proofs.Refusal
import DefinitionLowering.Proofs.Releases
import DefinitionLowering.Proofs.Rendering
import DefinitionLowering.Proofs.Resolution
import DefinitionLowering.Proofs.Scanning
import DefinitionLowering.Proofs.Scopes
import DefinitionLowering.Proofs.Search
import DefinitionLowering.Proofs.Settled
import DefinitionLowering.Proofs.Shifting
import DefinitionLowering.Proofs.Spelling
import DefinitionLowering.Proofs.Stages
import DefinitionLowering.Proofs.Statements
import DefinitionLowering.Proofs.Steps
import DefinitionLowering.Proofs.StoreLaws
import DefinitionLowering.Proofs.Suspension
import DefinitionLowering.Proofs.Temporaries
import DefinitionLowering.Proofs.Texts
import DefinitionLowering.Proofs.Threading
import DefinitionLowering.Proofs.Translation
import DefinitionLowering.Proofs.Unpacking
import DefinitionLowering.Proofs.Validity
import DefinitionLowering.Proofs.Violations
import DefinitionLowering.Proofs.WellFormed
import DefinitionLowering.Proofs.Wrapper
import DefinitionLowering.Proofs.Wrapping
import DefinitionLowering.Rejection
import DefinitionLowering.Signature
import DefinitionLowering.Surface.Declaration
import DefinitionLowering.Surface.Evidence
import DefinitionLowering.Surface.Json
import DefinitionLowering.Surface.Tree

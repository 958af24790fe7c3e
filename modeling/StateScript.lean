import StateScript.Action.Basic
import StateScript.Action.Reader
import StateScript.Binary64
import StateScript.Builtin.Call
import StateScript.Builtin.Names
import StateScript.Builtin.Number
import StateScript.Coercion
import StateScript.CommandLine.Arguments
import StateScript.CommandLine.Run
import StateScript.Config.Basic
import StateScript.Config.Layers
import StateScript.Config.Toml
import StateScript.Config.Variables
import StateScript.Decimal
import StateScript.Decimal.Reader
import StateScript.Engine.Basic
import StateScript.Engine.Results
import StateScript.Error
import StateScript.Eval.Basic
import StateScript.Eval.Compiled
import StateScript.Eval.Run
import StateScript.Execute.Basic
import StateScript.Execute.Call
import StateScript.Execute.Run
import StateScript.Expr.Basic
import StateScript.Expr.Dependencies
import StateScript.Expr.Escape
import StateScript.Expr.Grammar
import StateScript.Expr.Lexeme
import StateScript.Expr.Phrase
import StateScript.Expr.Reader
import StateScript.Expr.StaticPath
import StateScript.Json.Basic
import StateScript.Json.Reader
import StateScript.Json.Writer
import StateScript.Main
import StateScript.Method
import StateScript.Path.Access
import StateScript.Path.Basic
import StateScript.Path.Cache
import StateScript.Path.Match
import StateScript.Path.Reader
import StateScript.Store
import StateScript.Template
import StateScript.Text.Blank
import StateScript.Text.Case
import StateScript.Text.CaseRanges
import StateScript.Text.Letter
import StateScript.Text.LetterRanges
import StateScript.Text.NameSet
import StateScript.Text.Quoted
import StateScript.Text.Search
import StateScript.Validation
import StateScript.Word
import StateScript.World.Access
import StateScript.World.Basic
import StateScript.World.Edit
import StateScript.World.Handles
import StateScript.Proofs.Members
import StateScript.Proofs.FailedWrites
import StateScript.Proofs.Runs
import StateScript.Proofs.Scopes
import StateScript.Proofs.ScopeWrites
import StateScript.Proofs.RootWrites
import StateScript.Proofs.Spellings
import StateScript.Proofs.WellNamed
import StateScript.Proofs.RelatedEvaluations
import StateScript.Proofs.Dependencies
import StateScript.Proofs.EngineMemory
import StateScript.Proofs.ResultCaching
import StateScript.Proofs.Invalidation
import StateScript.Proofs.FaithfulWrites
import StateScript.Proofs.Lifetimes
import StateScript.Proofs.FreshResults
import StateScript.Proofs.Gates
import StateScript.Proofs.EngineHistories
import StateScript.Proofs.HiddenNames
import StateScript.Proofs.DeniedWrites
import StateScript.Proofs.Machines
import StateScript.Proofs.RelatedRuns
import StateScript.Proofs.Courses
import StateScript.Proofs.GuardedScopes
import StateScript.Proofs.FaultSites
import StateScript.Proofs.ValidatedFaults
import StateScript.Proofs.Dispatches
import StateScript.Proofs.ScopeNumbers
import StateScript.Proofs.StepBudgets
import StateScript.Proofs.PathReads
import StateScript.Proofs.WriteReads
import StateScript.Proofs.CleanValues
import StateScript.Proofs.QuietMethods
import StateScript.Proofs.ChangeLogs
import StateScript.Proofs.ActionTurns
import StateScript.Proofs.Recognition
import StateScript.Proofs.Operands
import StateScript.Proofs.Braces
import StateScript.Proofs.Markers
import StateScript.Proofs.EvaluatedTexts
import StateScript.Proofs.WholeNumbers
import StateScript.Proofs.Addresses
import StateScript.Proofs.AddressTrees
import StateScript.Proofs.AddressValues
import StateScript.Proofs.AddressReads
import StateScript.Proofs.WrittenSources
import StateScript.Proofs.Agreements
import StateScript.Proofs.CourseInvariants
import StateScript.Proofs.TwinRuns
import StateScript.Proofs.AlikeWorlds
import StateScript.Proofs.LoopPools
import StateScript.Proofs.ConfinedEngines
import StateScript.Proofs.ConfinedRuns
import StateScript.Proofs.CanonicalTexts
import StateScript.Proofs.Replacements
import StateScript.Proofs.WriteLaws
import StateScript.Proofs.Interference
import StateScript.Proofs.Deletions
import StateScript.Proofs.PlainEvaluation
import StateScript.Proofs.EvaluationSteps
import StateScript.Proofs.NestingScans
import StateScript.Proofs.Formulas
import StateScript.Proofs.FormulaReading
import StateScript.Proofs.Concurrence
import StateScript.Proofs.OpenExpressions
import StateScript.Proofs.MissedConditionals
import StateScript.Proofs.ShallowTrees
import StateScript.Proofs.ArrayActions
import StateScript.Proofs.OnwardRuns
import StateScript.Proofs.LaterTimers
import StateScript.Proofs.Batches
import StateScript.Proofs.UnattributedErrors
import StateScript.Proofs.StackedRuns
import StateScript.Proofs.MirroredRuns
import StateScript.Proofs.BlamedActions
import StateScript.Proofs.Occurrences
import StateScript.Proofs.TemplatePieces
import StateScript.Proofs.TextMethods
import StateScript.Proofs.LaidTrees
import StateScript.Proofs.SourceSpans
import StateScript.Proofs.PathCaches
import StateScript.Proofs.Numerals
import StateScript.Proofs.Escapes
import StateScript.Proofs.NumericReading

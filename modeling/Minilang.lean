import Minilang.Files.Tree
import Minilang.Main
import Minilang.Proofs.BigStepExact
import Minilang.Proofs.Concatenation
import Minilang.Proofs.CursorMotion
import Minilang.Proofs.Diagnosis
import Minilang.Proofs.Layout
import Minilang.Proofs.OutputLimit
import Minilang.Proofs.UndefinedMode
import Minilang.Proofs.ZeroFilling
import Minilang.Proofs.CursorLoop
import Minilang.Proofs.Decoding
import Minilang.Proofs.ForeignByte
import Minilang.Proofs.BlockText
import Minilang.Proofs.OriginListing
import Minilang.Proofs.Tiling
import Minilang.Proofs.DumpText
import Minilang.Proofs.Rejection
import Minilang.Proofs.StoreEffect
import Minilang.Proofs.ExpressionValue
import Minilang.Proofs.FinishedLoop
import Minilang.Proofs.StoreFrame
import Minilang.Proofs.Tracing
import Minilang.Proofs.DecimalText
import Minilang.Proofs.SuiteValidity
import Minilang.Proofs.ByteOrder
import Minilang.Proofs.CaseOutcome
import Minilang.Proofs.EditDistance
import Minilang.Proofs.NearestName
import Minilang.Proofs.FailureChain
import Minilang.Proofs.PatternSyntax
import Minilang.Proofs.ManifestSearch
import Minilang.Proofs.FixturePaths
import Minilang.Proofs.PatternChunks
import Minilang.Proofs.PatternExpansion
import Minilang.Proofs.InterspersedFlags
import Minilang.Proofs.SuiteVerdict
import Minilang.Proofs.RunCommand
import Minilang.Proofs.DecodedRecord
import Minilang.Proofs.ManifestNormal
import Minilang.Proofs.DescentReturns
import Minilang.Proofs.StoreHistory

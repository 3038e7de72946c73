import Consequence.Formula.Truth
import Consequence.Main
import Consequence.Proofs.Classification
import Consequence.Proofs.Listing
import Consequence.Proofs.Lossless
import Consequence.Proofs.OnePassReading
import Consequence.Proofs.Rearrangement
import Consequence.Proofs.Deduction
import Consequence.Proofs.Concatenation
import Consequence.Proofs.Sharpening
import Consequence.Proofs.Locations
import Consequence.Proofs.Rejection
import Consequence.Proofs.CommandLine
import Consequence.Proofs.Splitting
import Consequence.Proofs.Proportion
import Consequence.Proofs.Presentation
import Consequence.Proofs.Renaming
import Consequence.Proofs.DepthLimit
import Consequence.Proofs.Progress
import Consequence.Proofs.Series
import Consequence.Proofs.MissingOperands
import Consequence.Proofs.PrefixOutput
import Consequence.Proofs.FreeSymbols
import Consequence.Proofs.Unread
import Consequence.Proofs.OwnConjunction
import Consequence.Proofs.Compilation
import Consequence.Proofs.LineEnds
import Consequence.Proofs.Underline
import Consequence.Proofs.Walk
import Consequence.Proofs.Pinning
import Consequence.Proofs.Index
import Consequence.Proofs.LineUses
import Consequence.Proofs.Scanner

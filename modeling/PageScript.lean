import PageScript.Command.Program
import PageScript.Grammar.Words
import PageScript.Listing.Literals
import PageScript.Listing.Tokens
import PageScript.Literal.Items
import PageScript.Literal.Value
import PageScript.Log.Event
import PageScript.Main
import PageScript.Mode
import PageScript.Proofs.CharacterBoundaries
import PageScript.Proofs.Characters
import PageScript.Proofs.Checks
import PageScript.Proofs.ClosingQuotes
import PageScript.Proofs.CodePoints
import PageScript.Proofs.ConstantValues
import PageScript.Proofs.DecodedLength
import PageScript.Proofs.HandoverOrder
import PageScript.Proofs.HeredocEnd
import PageScript.Proofs.HeredocHeaders
import PageScript.Proofs.Interpolation
import PageScript.Proofs.LineEndings
import PageScript.Proofs.Listings
import PageScript.Proofs.MaximalMunch
import PageScript.Proofs.NumberTokens
import PageScript.Proofs.Openers
import PageScript.Proofs.Positions
import PageScript.Proofs.Pulling
import PageScript.Proofs.Regions
import PageScript.Proofs.Reports
import PageScript.Proofs.Resumption
import PageScript.Proofs.SearchedEnds
import PageScript.Proofs.SingleQuotes
import PageScript.Proofs.Tiling
import PageScript.Proofs.Underlines
import PageScript.Proofs.WrittenForm
import PageScript.Reading
import PageScript.Settings
import PageScript.Source.Map
import PageScript.Text.Name
import PageScript.Proofs.PlacedCursors
import PageScript.Proofs.CursorOperations
import PageScript.Proofs.NameRuns
import PageScript.Proofs.CheckedOffsets
import PageScript.Proofs.Histories
import PageScript.Proofs.SectionWork
import PageScript.Proofs.SectionCuts
import PageScript.Proofs.SectionBodies
import PageScript.Proofs.SectionCalls

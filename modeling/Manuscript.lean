import Manuscript.Main
import Manuscript.Proofs.Compiler.Isolation
import Manuscript.Proofs.Layout.Spacing
import Manuscript.Proofs.Compiler.Traceless
import Manuscript.Proofs.Compiler.Interruption
import Manuscript.Proofs.FileSystem.Walk
import Manuscript.Proofs.Path.Order
import Manuscript.Proofs.FileSystem.Frame
import Manuscript.Proofs.Compiler.Files
import Manuscript.Proofs.Project.Exits
import Manuscript.Proofs.Project.Effects
import Manuscript.Proofs.FileSystem.Tree
import Manuscript.Proofs.Discovery.Base
import Manuscript.Proofs.Discovery.Listing
import Manuscript.Proofs.Context.Blocks
import Manuscript.Proofs.Context.FirstParagraph
import Manuscript.Proofs.Context.Emphasis
import Manuscript.Proofs.Settings.Overlay
import Manuscript.Proofs.Layout.PhysicalLines
import Manuscript.Proofs.Layout.Fewest
import Manuscript.Proofs.Aside.Again
import Manuscript.Proofs.Layout.LeftoverMarks
import Manuscript.Proofs.Context.Nesting
import Manuscript.Proofs.Tag.Recognition
import Manuscript.Proofs.Text.Tidy
import Manuscript.Proofs.Compiler.Headings
import Manuscript.Proofs.Layout.Tidiness
import Manuscript.Proofs.Aside.Parting
import Manuscript.Proofs.Aside.Longest
import Manuscript.Proofs.Registry.OwnNames
import Manuscript.Proofs.Watchlist.Found
import Manuscript.Proofs.Text.Words

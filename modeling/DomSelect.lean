import DomSelect.Main
import DomSelect.Session
import DomSelect.Proofs.Text.Quoting
import DomSelect.Proofs.Text.JsonGrammar
import DomSelect.Proofs.Tree.Effects
import DomSelect.Proofs.Tree.Unfolding
import DomSelect.Proofs.Tree.WellBuilt
import DomSelect.Proofs.Tree.Links
import DomSelect.Proofs.Tree.Histories
import DomSelect.Proofs.Tree.Leaps
import DomSelect.Proofs.Tree.Descendants
import DomSelect.Proofs.Tree.Ancestry
import DomSelect.Proofs.Tree.Outlines
import DomSelect.Proofs.Tree.LineFeeds
import DomSelect.Proofs.Tree.Growth
import DomSelect.Proofs.Selector.Grammar
import DomSelect.Proofs.Selector.LongestMatch
import DomSelect.Proofs.Selector.Stream
import DomSelect.Proofs.Selector.Tiling
import DomSelect.Proofs.Selector.Automaton
import DomSelect.Proofs.Selector.Offsets
import DomSelect.Proofs.Selector.Windows
import DomSelect.Proofs.Selector.Steps
import DomSelect.Proofs.Selector.Compiling
import DomSelect.Proofs.Selector.Language
import DomSelect.Proofs.Selector.RoundTrip
import DomSelect.Proofs.Selector.Blanks
import DomSelect.Proofs.Selector.Errors
import DomSelect.Proofs.Selector.Spelling
import DomSelect.Proofs.Selector.Folding
import DomSelect.Proofs.Selector.Schedules
import DomSelect.Proofs.Query.Walking
import DomSelect.Proofs.Query.Strict
import DomSelect.Proofs.Query.Prefixes
import DomSelect.Proofs.Query.Composition
import DomSelect.Proofs.Query.Recursion
import DomSelect.Proofs.Query.Alike
import DomSelect.Proofs.Query.FormLookup
import DomSelect.Proofs.Query.Written
import DomSelect.Proofs.Query.Building
import DomSelect.Proofs.Query.Bounds
import DomSelect.Proofs.Query.Endings
import DomSelect.Proofs.Markup.Conversion
import DomSelect.Proofs.Session.Reports
import DomSelect.Proofs.Session.Labels
import DomSelect.Proofs.Cli.Sections
import DomSelect.Proofs.Cli.Runs

import GoLayout.Comment.Attach
import GoLayout.Format
import GoLayout.Grammar.File
import GoLayout.Layout.Length
import GoLayout.Layout.Tree
import GoLayout.LineTable
import GoLayout.Pattern.Rule
import GoLayout.Proofs.Comment.Index
import GoLayout.Proofs.Comment.Trail
import GoLayout.Proofs.Format
import GoLayout.Proofs.Layout.Canonical
import GoLayout.Proofs.Layout.Header
import GoLayout.Proofs.Layout.Length
import GoLayout.Proofs.Layout.Operators
import GoLayout.Proofs.Layout.Print
import GoLayout.Proofs.LineTable.History
import GoLayout.Proofs.Order.Nest
import GoLayout.Proofs.Pattern.Identity
import GoLayout.Proofs.Pattern.Match
import GoLayout.Proofs.Progress.File
import GoLayout.Proofs.Simplify
import GoLayout.Proofs.Spacing.Source
import GoLayout.Proofs.Tidy.CommentSpacing
import GoLayout.Proofs.Tidy.CommentedImports
import GoLayout.Proofs.Tidy.Constants
import GoLayout.Proofs.Tidy.Lines
import GoLayout.Proofs.Tidy.StandardFirst
import GoLayout.Proofs.Tidy.Structs
import GoLayout.Proofs.Token.Longest
import GoLayout.Proofs.Token.Semicolon
import GoLayout.Proofs.Tree.Slots
import GoLayout.Proofs.Words.File
import GoLayout.Simplify
import GoLayout.Tidy
import GoLayout.Token.Scan
import GoLayout.Tree.Node
import GoLayout.Version

import SceneTree.Adjust.Script
import SceneTree.Document.Builder
import SceneTree.Proofs.Document.RoundTrip
import SceneTree.Proofs.Document.Template
import SceneTree.Proofs.Document.Canonical
import SceneTree.Proofs.Document.Tree
import SceneTree.Proofs.Document.Packed
import SceneTree.Proofs.Document.Pushes
import SceneTree.Proofs.Document.Reach
import SceneTree.Proofs.Document.Pushed
import SceneTree.Proofs.Forest.Folds
import SceneTree.Proofs.Forest.Runs
import SceneTree.Proofs.Forest.Links
import SceneTree.Proofs.Forest.Removal
import SceneTree.Proofs.Layout.Afresh
import SceneTree.Proofs.Expand.Contract
import SceneTree.Proofs.Expand.Detach
import SceneTree.Proofs.Expand.Copy
import SceneTree.Proofs.Expand.Nest
import SceneTree.Proofs.Expand.Correct
import SceneTree.Proofs.Session.Usage
import SceneTree.Proofs.Session.Chain
import SceneTree.Proofs.Session.Nearest
import SceneTree.Proofs.Session.Siblings
import SceneTree.Proofs.Layout.Along
import SceneTree.Proofs.Layout.LaidOut
import SceneTree.Proofs.Layout.Rigid
import SceneTree.Proofs.Layout.Apart
import SceneTree.Proofs.Resolve.Precedence
import SceneTree.Proofs.Forest.Shown
import SceneTree.Proofs.Session.Pointing
import SceneTree.Proofs.Session.Answers
import SceneTree.Proofs.Session.Decorated
import SceneTree.Proofs.Session.Borders
import SceneTree.Proofs.Adjust.Effects
import SceneTree.Proofs.Adjust.Docked
import SceneTree.Proofs.Layout.Aside
import SceneTree.Proofs.Session.Inert
import SceneTree.Proofs.Document.Verdicts
import SceneTree.Proofs.Document.Roots
import SceneTree.Proofs.Session.Calls
import SceneTree.Proofs.Document.Joined
import SceneTree.Proofs.Layout.Aligned
import SceneTree.Proofs.Layout.Filled
import SceneTree.Proofs.Layout.Wrapped
import SceneTree.Proofs.Layout.Asked
import SceneTree.Proofs.Layout.Moved
import SceneTree.Proofs.Session.Drawn
import SceneTree.Proofs.Document.Handles
import SceneTree.Proofs.Resolve.Agreement
import SceneTree.Proofs.Adjust.Tiled
import SceneTree.Proofs.Resolve.Arguments
import SceneTree.Proofs.Expand.Imprint
import SceneTree.Proofs.Expand.Authentic
import SceneTree.Proofs.Session.Texts

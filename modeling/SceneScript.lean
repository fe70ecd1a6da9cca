import SceneScript.Main
import SceneScript.Script.Edit
import SceneScript.Proofs.Catalogue
import SceneScript.Proofs.Codec
import SceneScript.Proofs.Offsets
import SceneScript.Proofs.Passes
import SceneScript.Proofs.Preparation
import SceneScript.Proofs.Findings
import SceneScript.Proofs.Convergence
import SceneScript.Proofs.Meaning
import SceneScript.Proofs.Tiling
import SceneScript.Proofs.Destinations
import SceneScript.Proofs.Linking
import SceneScript.Proofs.LaidOut
import SceneScript.Proofs.Validation
import SceneScript.Proofs.Carried
import SceneScript.Proofs.Emission
import SceneScript.Proofs.RoundTrip
import SceneScript.Proofs.Shortest
import SceneScript.Proofs.Reassembly
import SceneScript.Proofs.SameCode
import SceneScript.Proofs.Format
import SceneScript.Proofs.Drafting
import SceneScript.Proofs.Numerals
import SceneScript.Proofs.PrintedWords
import SceneScript.Proofs.ReadBack
import SceneScript.Proofs.Containers
import SceneScript.Proofs.Operations
import SceneScript.Proofs.RecordedLengths
import SceneScript.Proofs.Rules
import SceneScript.Proofs.Independence
import SceneScript.Proofs.Lossless
import SceneScript.Proofs.Editing
import SceneScript.Proofs.LabelNumbers
import SceneScript.Proofs.Insertion
import SceneScript.Proofs.Consistency
import SceneScript.Proofs.SafeEmission
import SceneScript.Proofs.Refusals
import SceneScript.Proofs.CanonicalLabels
import SceneScript.Proofs.Renumbering
import SceneScript.Proofs.Anchoring
import SceneScript.Proofs.Congruence
import SceneScript.Proofs.Reports
import SceneScript.Proofs.LabelReports
import SceneScript.Proofs.LocalReports
import SceneScript.Proofs.Stepping
import SceneScript.Proofs.VariableUses
import SceneScript.Proofs.StoredForms
import SceneScript.Proofs.Rows
import SceneScript.Proofs.ShownLabels
import SceneScript.Proofs.NumberGrammar

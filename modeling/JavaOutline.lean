import JavaOutline.Cli.FileTree
import JavaOutline.Main
import JavaOutline.Declaration.Codec
import JavaOutline.Json.Reader
import JavaOutline.Proofs.OutlineRecords
import JavaOutline.Proofs.OutlineCodec
import JavaOutline.Proofs.DeclarationCodec
import JavaOutline.Proofs.RootSelection
import JavaOutline.Proofs.MemberOrder
import JavaOutline.Proofs.OutputScopes
import JavaOutline.Proofs.OutlineSchema
import JavaOutline.Proofs.StrictOutlines
import JavaOutline.Proofs.Matching
import JavaOutline.Proofs.Characters
import JavaOutline.Proofs.Lexing
import JavaOutline.Proofs.CanonicalTypes
import JavaOutline.Proofs.MemberReading
import JavaOutline.Proofs.TypePositions
import JavaOutline.Proofs.UnambiguousTypes
import JavaOutline.Proofs.NoiseDeletion
import JavaOutline.Proofs.PrunedContent
import JavaOutline.Proofs.UniqueText
import JavaOutline.Proofs.Derivations
import JavaOutline.Proofs.NodeShapes
import JavaOutline.Proofs.WellFormedUnits
import JavaOutline.Proofs.SourceText
import JavaOutline.Proofs.DeclarationTrees
import JavaOutline.Proofs.PartReading
import JavaOutline.Proofs.ModifierReading
import JavaOutline.Proofs.DeclarationReading
import JavaOutline.Proofs.FileReading
import JavaOutline.Proofs.DeclarationMeaning
import JavaOutline.Proofs.ReadingBack
import JavaOutline.Proofs.NestedTypes
import JavaOutline.Proofs.ModifierRules
import JavaOutline.Proofs.DeclaringNodes
import JavaOutline.Proofs.MemberListing
import JavaOutline.Proofs.StrictDocuments
import JavaOutline.Proofs.Layout
import JavaOutline.Proofs.CodeContents
import JavaOutline.Proofs.JoinedFiles
import JavaOutline.Proofs.ReplacedCode
import JavaOutline.Proofs.Extraction
import JavaOutline.Proofs.KeyOrder
import JavaOutline.Proofs.Comments
import JavaOutline.Proofs.RelevantInputs
import JavaOutline.Proofs.Navigation
import JavaOutline.Proofs.FieldStatements
import JavaOutline.Proofs.BracketGroups
import JavaOutline.Proofs.RequiredKeys
import JavaOutline.Proofs.RecordLayout
import JavaOutline.Proofs.AccessFlags
import JavaOutline.Proofs.TypeConstruction
import JavaOutline.Proofs.MemberSorts
import JavaOutline.Proofs.AddedDimensions

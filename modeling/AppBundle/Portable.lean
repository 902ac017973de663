import AppBundle.Model

namespace AppBundle

/-!
Portable locations. In a bundle an artifact's place is written relative to a repository that is
named by a placeholder; a reader of the bundle turns it into a file path again. Domain references
keep whatever location they have.
-/

/-- The repository's name in portable locations, without separators at its end. -/
structure Placeholder where
  name : String
deriving DecidableEq

namespace Placeholder

def ofText (text : String) : Placeholder :=
  ⟨String.ofList (Text.trimEndWhile (· = '/') text.toList)⟩

def defaultName : String := "repository"

def default : Placeholder := ofText defaultName

/-- What every portable location starts with. -/
def lead (placeholder : Placeholder) : String :=
  placeholder.name ++ "/"

def locationFor (placeholder : Placeholder) (coordinate : Coordinate) : String :=
  placeholder.lead ++ coordinate.repositoryPath

def parameterize (placeholder : Placeholder) (artifact : Artifact) : Artifact :=
  if artifact.coordinate.isDomain then artifact
  else { artifact with location := some (placeholder.locationFor artifact.coordinate) }

/-- What follows the lead of a portable location. -/
def relative? (placeholder : Placeholder) (location : String) : Option String :=
  (placeholder.lead.toList.isPrefixOf? location.toList).map String.ofList

/-- The file path of a location in the bundle at `bundleRoot`; one that is not portable is a path
already. -/
def resolve (placeholder : Placeholder) (bundleRoot : Path) (location : String) : Path :=
  match placeholder.relative? location with
  | some relative =>
      (Text.parts '/' relative).foldl (fun path (segment : String) => path.join ⟨segment⟩)
        (bundleRoot.join ⟨placeholder.name⟩)
  | none => ⟨location⟩

/-- Locations are texts, so that the path is repaired where the bundle's is none. -/
def localize (placeholder : Placeholder) (bundleRoot : Path) (artifact : Artifact) : Artifact :=
  match artifact.location with
  | some location =>
      if artifact.coordinate.isDomain then artifact
      else { artifact with location := some (placeholder.resolve bundleRoot location).shown }
  | none => artifact

def onAddition (change : Artifact → Artifact) (addition : Addition) : Addition :=
  { addition with dependencies := addition.dependencies.map change }

/-- A model read from a bundle, with the file path of every location. -/
def localizeModel (placeholder : Placeholder) (bundleRoot : Path) (model : Model) : Model :=
  { model with
    dependencies := model.dependencies.map (placeholder.localize bundleRoot)
    additions := model.additions.map (onAddition (placeholder.localize bundleRoot)) }

end Placeholder

end AppBundle

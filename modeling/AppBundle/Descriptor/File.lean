import AppBundle.Descriptor.Reader
import AppBundle.Descriptor.Writer
import AppBundle.FileSystem.Step

namespace AppBundle

/-!
Descriptor files. The root descriptor of a bundle lies in a directory of its own; every other
descriptor lies in the root of what it describes.
-/

namespace Model

def descriptorName : String := "classloader-model.json"

def metadataDirectory : Path := ⟨"META-INF/mule-artifact"⟩

def rootDescriptorPath (bundle : Path) : Path :=
  (bundle.join metadataDirectory).join ⟨descriptorName⟩

/-- Writes a descriptor, and the directories around it as far as they are missing. -/
def descriptorSteps (path : Path) (present : Presentation) (pretty : Bool) (model : Model) :
    List Step :=
  path.parent?.toList.map Step.makeDirectory ++
    [.write path (model.descriptor present pretty).toUTF8]

/-- The root of the bundle that a descriptor was written into. -/
def bundleRoot (descriptor : Path) : Path :=
  let directory := descriptor.parent?.getD ⟨""⟩
  if directory.endsWith metadataDirectory then
    (directory.parent?.bind Path.parent?).getD directory
  else directory

def load (files : FileSystem) (path : Path) : Except Failure Model :=
  match files.read? path with
  | none => .error (.file path)
  | some content => ofDescriptor content

end Model

end AppBundle

import AppBundle.Xml.Attribute

namespace AppBundle.Xml

/-!
Name spaces. Attributes of a tag declare prefixes for its element and everything in it. Two
prefixes and the name spaces they stand for are fixed.
-/

/-- The names of the standard name spaces have one host and differ in their paths. -/
def standardSpace (path : List String) : String :=
  "http:" ++ "//www.w3.org/" ++ Text.joined '/' path

def xmlSpace : String := standardSpace ["XML", "1998", "namespace"]

def declarationSpace : String := standardSpace ["2000", "xmlns", ""]

/-- The name space of instances of a schema. -/
def instanceSpace : String := standardSpace ["2001", "XMLSchema-instance"]

/-- A prefix and the name space it stands for. -/
structure Binding where
  lead : String
  space : String
deriving DecidableEq

/-- The prefix that an attribute declares. -/
def Attribute.declared? (item : Attribute) : Option String :=
  (['x', 'm', 'l', 'n', 's', ':'].isPrefixOf? item.name.toList).map String.ofList

/-- What an attribute declares, if anything, unless it may not do so. -/
def Attribute.bindings? (item : Attribute) : Option (List Binding) :=
  match item.declared? with
  | none => some []
  | some lead =>
      if lead = "xml" then if item.value = xmlSpace then some [] else none
      else if lead = "xmlns" ∨ item.value = xmlSpace ∨ item.value = declarationSpace then none
      else some [⟨lead, item.value⟩]

/-- The declarations of a tag, the latest first, up to the first attribute without a proper form. -/
def Tag.bindings? (tag : Tag) : Option (List Binding) :=
  let items := ((tag.attributeItems false).takeWhile (·.isSome)).filterMap id
  (items.mapM Attribute.bindings?).map fun declared => declared.flatten.reverse

/-- The declarations of the elements that are open, the innermost first. -/
abbrev Scope := List (List Binding)

namespace Scope

def enter? (scope : Scope) (tag : Tag) : Option Scope :=
  tag.bindings?.map (· :: scope)

def leave (scope : Scope) : Scope := scope.tail

/-- Whether a prefix stands for instances of a schema. The latest declaration counts. -/
def meansInstance (scope : Scope) (lead : String) : Bool :=
  match scope.flatten.find? (·.lead = lead) with
  | some binding => lead ≠ "" && binding.space == instanceSpace
  | none => false

/-- Whether a tag says that its element holds nothing. -/
def marksNil (scope : Scope) (tag : Tag) : Bool :=
  ((tag.attributeItems true).filterMap id).any fun item =>
    match item.lead? with
    | some lead =>
        scope.meansInstance lead && Tag.localPart item.name == "nil" &&
          (item.value == "true" || item.value == "1")
    | none => false

end Scope

end AppBundle.Xml

import AppBundle.Xml.Escape

namespace AppBundle.Xml

/-!
Written elements without attributes. One without content is a single tag.
-/

def declaration : String := "<?xml version=\"1.0\" encoding=\"UTF-8\"?>\n"

def openingTag (name : String) : List Char :=
  '<' :: (name.toList ++ ['>'])

def closingTag (name : String) : List Char :=
  '<' :: '/' :: (name.toList ++ ['>'])

def emptyTag (name : String) : List Char :=
  '<' :: (name.toList ++ ['/', '>'])

/-- An element around content in its written form. -/
def wrapped (name : String) (content : List Char) : List Char :=
  if content = [] then emptyTag name else openingTag name ++ content ++ closingTag name

def textElement (name : String) (content : Option String) : List Char :=
  wrapped name (escape (content.getD "").toList)

end AppBundle.Xml

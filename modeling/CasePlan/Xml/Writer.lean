import CasePlan.Xml.Tree

/-!
# Writing XML

`Node.write` puts a tree on one line; `Node.writeIndented` puts each element on a line of its own,
two blanks further in than the element around it, but leaves the content of an element with text
where it is.  White space other than blanks is written by number in attributes, as reading would
turn it into blanks otherwise.  What stands in a CDATA section is written as it is, except that an
end mark within it is divided between two sections.
-/

namespace CasePlan.Xml

/-- One code point of an attribute. -/
def attributeCode (c : CodePoint) : Text :=
  if c = '&' then "&amp;"
  else if c = '<' then "&lt;"
  else if c = '>' then "&gt;"
  else if c = '"' then "&quot;"
  else if c = '\t' then "&#9;"
  else if c = '\n' then "&#10;"
  else if c = '\r' then "&#13;"
  else [c]

/-- One code point of a run of text. -/
def contentCode (c : CodePoint) : Text :=
  if c = '&' then "&amp;"
  else if c = '<' then "&lt;"
  else if c = '>' then "&gt;"
  else if c = '\r' then "&#13;"
  else [c]

/-- The content of a CDATA section, each end mark in it divided between two sections. -/
def sectionContent (t : Text) : Text := Text.replaceAll "]]>" "]]]]><![CDATA[>" t

/-- An attribute, with a blank before it. -/
def writeAttribute (a : Text × Text) : Text :=
  " " ++ a.1 ++ "=\"" ++ a.2.flatMap attributeCode ++ "\""

/-- The inside of a tag: name and attributes. -/
def writeTag (name : Text) (attributes : List (Text × Text)) : Text :=
  name ++ attributes.flatMap writeAttribute

namespace Node

mutual

/-- A tree on one line. -/
def write : Node Text → Text
  | element name attributes [] => "<" ++ writeTag name attributes ++ "/>"
  | element name attributes (n :: rest) =>
    "<" ++ writeTag name attributes ++ ">" ++ writeAll (n :: rest) ++ "</" ++ name ++ ">"
  | text content => content.flatMap contentCode
  | cdata content => "<![CDATA[" ++ sectionContent content ++ "]]>"
  | comment content => "<!--" ++ content ++ "-->"
  | instruction target content => "<?" ++ target ++ " " ++ content ++ "?>"
  | reference name => "&" ++ name ++ ";"

/-- Trees on one line. -/
def writeAll : List (Node Text) → Text
  | [] => []
  | n :: rest => write n ++ writeAll rest

end

/-- Whether the piece is text, so that the element around it is not broken into lines. -/
def isInline : Node Text → Bool
  | text _ | cdata _ | reference _ => true
  | _ => false

/-- The beginning of a line at a depth. -/
def indent (depth : Nat) : Text := List.replicate (2 * depth) ' '

mutual

/-- A tree in lines, at a depth. -/
def writeIndented (depth : Nat) : Node Text → Text
  | element name attributes (n :: rest) =>
    if isInline n || rest.any isInline then write (element name attributes (n :: rest))
    else
      "<" ++ writeTag name attributes ++ ">" ++ "\n" ++ writeLines (depth + 1) (n :: rest) ++
        indent depth ++ "</" ++ name ++ ">"
  | n => write n

/-- Trees each on lines of their own. -/
def writeLines (depth : Nat) : List (Node Text) → Text
  | [] => []
  | n :: rest => indent depth ++ writeIndented depth n ++ "\n" ++ writeLines depth rest

end

end Node

end CasePlan.Xml

import CasePlan.Xml.Reader

/-!
# Namespaces

`Node.resolve?` gives every element and attribute of a tree its namespace.  A tree has no resolved
form if it uses a namespace abbreviation that is not declared, declares one of the reserved
abbreviations, or gives an element two attributes of the same name in the same namespace.  A
document has none either if an identifier in it, an attribute `xml:id`, is no name or occurs twice.
-/

namespace CasePlan.Xml

/-- A name with its namespace. -/
structure Name where
  /-- The namespace, if the name is in one. -/
  space : Option Text
  /-- The name without abbreviation. -/
  base : Text
  deriving DecidableEq, Repr

/-- A piece of content whose names have namespaces. -/
inductive Content where
  /-- An element with its attributes and its content; declarations of namespaces are kept apart. -/
  | element (name : Name) (declared : List (Text × Text)) (attributes : List (Name × Text))
      (children : List Content)
  /-- A run of text or a CDATA section. -/
  | text (content : Text)
  /-- A processing instruction with its target. -/
  | instruction (target content : Text)
  /-- A comment or a reference to an entity. -/
  | other

/-- The namespace that belongs to the abbreviation `xml`. -/
def xmlNamespace : Text := "http://www.w3.org/XML/1998/namespace"

/-- The namespace of declarations themselves. -/
def xmlnsNamespace : Text := "http://www.w3.org/2000/xmlns/"

/-- A name cut at its colon: the abbreviation and the rest.  There may be one colon, inside. -/
def cutName? (t : Text) : Option (Option Text × Text) :=
  match t.span (!isColon ·) with
  | (base, []) => some (none, base)
  | (abbreviation, _ :: base) =>
    match abbreviation, base with
    | _ :: _, c :: _ =>
      if isNameStart c && !base.any isColon then some (some abbreviation, base) else none
    | _, _ => none

/-- Whether a code point may stand in the identifier of a resource. -/
def isUriCode (c : CodePoint) : Bool :=
  (0x41 ≤ c.val && c.val ≤ 0x5A) || (0x61 ≤ c.val && c.val ≤ 0x7A) ||
    (0x30 ≤ c.val && c.val ≤ 0x39) ||
    decide (c ∈ Text.ofString "-._~:/?#[]@!$&'()*+,;=%")

/-- Whether every percent sign is followed by two hexadecimal digits. -/
def hasGoodEscapes : Text → Bool
  | [] => true
  | c :: rest =>
    (c ≠ '%' || (digitsValue? 16 (rest.take 2)).isSome && (rest.take 2).length == 2) &&
      hasGoodEscapes rest

/-- Whether a text is the identifier of a resource. -/
def isUri (t : Text) : Bool :=
  t.all isUriCode && hasGoodEscapes t && t.count (CodePoint.ofChar '#') ≤ 1

/-- The namespaces in force, innermost first; the abbreviation of the default one is empty. -/
abbrev Scope := List (Text × Text)

/-- The abbreviation that an attribute declares, if it is a declaration. -/
def declaredBy? (key : Text) : Option Text :=
  if key = ("xmlns" : Text) then some []
  else
    match cutName? key with
    | some (some abbreviation, base) =>
      if abbreviation = ("xmlns" : Text) then some base else none
    | _ => none

/-- Whether a declaration is allowed. -/
def isAllowed (abbreviation space : Text) : Bool :=
  if abbreviation = ("xml" : Text) then space = xmlNamespace
  else
    abbreviation ≠ ("xmlns" : Text) && space ≠ xmlNamespace && space ≠ xmlnsNamespace &&
      (abbreviation.isEmpty || !space.isEmpty) && isUri space

/-- The namespaces that attributes declare. -/
def declarations (attributes : List (Text × Text)) : List (Text × Text) :=
  attributes.filterMap fun (key, value) => (declaredBy? key).map (·, value)

/-- The namespace of an abbreviation. -/
def Scope.find? (scope : Scope) (abbreviation : Text) : Option Text :=
  if abbreviation = ("xml" : Text) then some xmlNamespace else Table.get? abbreviation scope

/-- The name of an element, which the default namespace applies to. -/
def elementName? (scope : Scope) (t : Text) : Option Name := do
  match ← cutName? t with
  | (some abbreviation, base) =>
    let space ← scope.find? abbreviation
    pure ⟨some space, base⟩
  | (none, base) =>
    match scope.find? [] with
    | some (c :: rest) => pure ⟨some (c :: rest), base⟩
    | _ => pure ⟨none, base⟩

/-- The name of an attribute, which the default namespace does not apply to. -/
def attributeName? (scope : Scope) (t : Text) : Option Name := do
  match ← cutName? t with
  | (some abbreviation, base) =>
    let space ← scope.find? abbreviation
    pure ⟨some space, base⟩
  | (none, base) => pure ⟨none, base⟩

/-- The attributes of an element with their namespaces, without the declarations. -/
def resolveAttributes? (scope : Scope) (attributes : List (Text × Text)) :
    Option (List (Name × Text)) := do
  let plain := attributes.filter fun (key, _) => (declaredBy? key).isNone
  let resolved ← plain.mapM fun (key, value) => (attributeName? scope key).map (·, value)
  let names := resolved.map (·.1)
  if names.eraseDups.length = names.length then some resolved else none

namespace Node

mutual

/-- The tree with namespaces, given those in force around it. -/
def resolve? (scope : Scope) : Node Text → Option Content
  | element name attributes children => do
    let declared := declarations attributes
    if !declared.all fun (abbreviation, space) => isAllowed abbreviation space then none
    let scope := declared.reverse ++ scope
    let name ← elementName? scope name
    let attributes ← resolveAttributes? scope attributes
    let children ← resolveAll? scope children
    pure (.element name declared attributes children)
  | text content => some (.text content)
  | cdata content => some (.text content)
  | comment _ => some .other
  | instruction target content => some (.instruction target content)
  | reference _ => some .other

/-- Trees with namespaces. -/
def resolveAll? (scope : Scope) : List (Node Text) → Option (List Content)
  | [] => some []
  | n :: rest => do
    let n ← resolve? scope n
    let rest ← resolveAll? scope rest
    pure (n :: rest)

end

end Node

namespace Content

mutual

/-- The identifiers in a tree, in document order. -/
def identifiers : Content → List Text
  | element _ _ attributes children =>
    (attributes.filter (·.1 = ⟨some xmlNamespace, "id"⟩)).map (·.2) ++ identifiersAll children
  | _ => []

/-- The identifiers in some trees. -/
def identifiersAll : List Content → List Text
  | [] => []
  | c :: rest => identifiers c ++ identifiersAll rest

end

/-- Whether every identifier is a name and occurs once. -/
def hasGoodIdentifiers (root : Content) : Bool :=
  let ids := root.identifiers
  ids.all isPlainName && ids.eraseDups.length = ids.length

/-- The root element of a document given as bytes, with namespaces. -/
def ofBytes? (bytes : List UInt8) : Option Content := do
  let root ← (Node.ofBytes? bytes).bind (Node.resolve? [])
  if root.hasGoodIdentifiers then some root else none

end Content

end CasePlan.Xml

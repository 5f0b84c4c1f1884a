import CasePlan.Xml.Doctype
import CasePlan.Xml.Encoding
import CasePlan.Xml.Tree

/-!
# Reading XML

`Node.ofText?` is the root element of a well-formed XML 1.0 document given as text with its lines
ended by line feeds, `Node.ofBytes?` that of a document given as bytes.  References to characters
are replaced; references to entities are replaced in attributes and stay in content.  Text and
references to characters that follow one another are one run of text.

Elements may stand in one another to a depth of 256.
-/

namespace CasePlan.Xml

/-- How deep elements may stand in one another. -/
def maxDepth : Nat := 256

/-- How a tag ends. -/
inductive TagEnd where
  /-- Content follows. -/
  | opening
  /-- The element is empty. -/
  | empty

/-- The attributes of a tag up to its end; `done` are those so far, reversed. -/
def readAttributeList (fuel : Nat) (d : Doctype) (element : Text) (done : List (Text × Text))
    (t : Text) : Option ((List (Text × Text) × TagEnd) × Text) :=
  match fuel with
  | 0 => none
  | fuel + 1 =>
    match Text.after? ">" (skipSpace t), Text.after? "/>" (skipSpace t) with
    | some rest, _ => some ((done.reverse, .opening), rest)
    | none, some rest => some ((done.reverse, .empty), rest)
    | none, none => do
      let (key, rest) ← (needSpace? t).bind readName
      if done.any (·.1 = key) then none
      let rest ← Text.after? "=" (skipSpace rest)
      let (raw, rest) ← readLiteral (skipSpace rest)
      let value ← d.attributeValue? raw
      let value := AttributeRule.adjust (d.rule? element key) value
      readAttributeList fuel d element ((key, value) :: done) rest

/-- A tag after its opening mark: name, attributes with those that are declared, and its end. -/
def readTag (fuel : Nat) (d : Doctype) (t : Text) :
    Option ((Text × List (Text × Text) × TagEnd) × Text) := do
  let (name, rest) ← readName t
  let ((given, tagEnd), rest) ← readAttributeList fuel d name [] rest
  let more := (d.defaults name).filter fun (key, _) => !given.any (·.1 = key)
  pure ((name, given ++ more, tagEnd), rest)

/-- Pieces of content so far, in reverse, with a run of text in front unless it is empty. -/
def flush (run : Text) (done : List (Node Text)) : List (Node Text) :=
  if run.isEmpty then done else .text run.reverse :: done

/-- Content up to the end tag of the element around it, or up to the end of the text; `done` are
the pieces so far and `run` the run of text under way, both reversed. -/
def readContent (fuel depth : Nat) (d : Doctype) (done : List (Node Text)) (run t : Text) :
    Option (List (Node Text) × Text) :=
  match fuel with
  | 0 => none
  | fuel + 1 =>
    match t with
    | [] => some ((flush run done).reverse, [])
    | c :: rest =>
      if c = '<' then
        if rest.head? = some (CodePoint.ofChar '/') then some ((flush run done).reverse, t)
        else
          match Text.after? "!--" rest, Text.after? "![CDATA[" rest, Text.after? "?" rest with
          | some rest, _, _ =>
            match readComment rest with
            | some (inside, rest) =>
              readContent fuel depth d (.comment inside :: flush run done) [] rest
            | none => none
          | none, some rest, _ =>
            match readUpTo "]]>" rest with
            | some (inside, rest) =>
              readContent fuel depth d (.cdata inside :: flush run done) [] rest
            | none => none
          | none, none, some rest =>
            match readInstruction rest with
            | some ((target, data), rest) =>
              readContent fuel depth d (.instruction target data :: flush run done) [] rest
            | none => none
          | none, none, none =>
            match readElement fuel depth d rest with
            | some (n, rest) => readContent fuel depth d (n :: flush run done) [] rest
            | none => none
      else if c = '&' then
        match readReference rest with
        | some (.character c, rest) => readContent fuel depth d done (c :: run) rest
        | some (.entity name, rest) =>
          readContent fuel depth d (.reference name :: flush run done) [] rest
        | none => none
      else if List.isPrefixOf (Text.ofString "]]>") t then none
      else readContent fuel depth d done (c :: run) rest
where
  /-- An element after the opening mark of its tag. -/
  readElement (fuel depth : Nat) (d : Doctype) (t : Text) : Option (Node Text × Text) :=
    match fuel, depth with
    | 0, _ | _, 0 => none
    | fuel + 1, depth + 1 =>
      match readTag (fuel + 1) d t with
      | none => none
      | some ((name, attributes, .empty), rest) => some (.element name attributes [], rest)
      | some ((name, attributes, .opening), rest) =>
        match readContent fuel depth d [] [] rest with
        | none => none
        | some (children, rest) =>
          match (Text.after? "</" rest).bind (Text.after? name) with
          | none => none
          | some rest =>
            (readEnd rest).map fun rest => (.element name attributes children, rest)

/-- An element after the opening mark of its tag. -/
def readElement (d : Doctype) (t : Text) : Option (Node Text × Text) :=
  readContent.readElement (2 * t.length + 2) maxDepth d t

/-! ## Entities in content -/

namespace Node

mutual

/-- The entities that a piece of content refers to. -/
def entityNames {τ : Type} : Node τ → List Text
  | element _ _ children => entityNamesAll children
  | reference name => [name]
  | _ => []

/-- The entities that some pieces of content refer to. -/
def entityNamesAll {τ : Type} : List (Node τ) → List Text
  | [] => []
  | n :: rest => entityNames n ++ entityNamesAll rest

end

end Node

/-- The entities that the text of an entity refers to, if it is well-formed content. -/
def entityContent? (d : Doctype) (value : Text) : Option (List Text) :=
  match readContent (2 * value.length + 2) maxDepth d [] [] value with
  | some (nodes, []) => some (Node.entityNamesAll nodes)
  | _ => none

/-- Whether a reference in content is right, given the internal entities that are. -/
def isReferable (d : Doctype) (settled : List Text) (name : Text) : Bool :=
  match Table.get? name d.entities with
  | some (.internal _) => name ∈ settled
  | some .external => true
  | some .unparsed => false
  | none => d.isLenient

/-- The internal entities whose texts are well-formed content and refer, within some rounds, only
to such entities. -/
def settledEntities (d : Doctype) : Nat → List Text
  | 0 => []
  | rounds + 1 =>
    let settled := settledEntities d rounds
    d.entities.filterMap fun (name, e) =>
      match e with
      | .internal value =>
        match entityContent? d value with
        | some names => if names.all (isReferable d settled) then some name else none
        | none => none
      | _ => none

/-- Whether all references in the content of an element are right. -/
def hasGoodReferences (d : Doctype) (root : Node Text) : Bool :=
  match root.entityNames with
  | [] => true
  | names => names.all (isReferable d (settledEntities d d.entities.length))

/-! ## Documents -/

/-- The rest after white space, comments and processing instructions. -/
def skipMisc (fuel : Nat) (t : Text) : Option Text :=
  match fuel with
  | 0 => none
  | fuel + 1 =>
    let t := skipSpace t
    match Text.after? "<!--" t, Text.after? "<?" t with
    | some rest, _ =>
      match readComment rest with
      | some (_, rest) => skipMisc fuel rest
      | none => none
    | none, some rest =>
      match readInstruction rest with
      | some (_, rest) => skipMisc fuel rest
      | none => none
    | none, none => some t

/-- Whether a text is a version number that begins with one. -/
def isVersion (t : Text) : Bool :=
  match t with
  | a :: b :: rest =>
    a = '1' && b = '.' && rest.all fun c => 0x30 ≤ c.val && c.val ≤ 0x39
  | _ => false

/-- Whether a text is the name of an encoding. -/
def isEncodingName (t : Text) : Bool :=
  match t with
  | c :: rest =>
    let isLetter (c : CodePoint) : Bool :=
      (0x41 ≤ c.val && c.val ≤ 0x5A) || (0x61 ≤ c.val && c.val ≤ 0x7A)
    isLetter c && rest.all fun c =>
      isLetter c || (0x30 ≤ c.val && c.val ≤ 0x39) || c = '.' || c = '_' || c = '-'
  | [] => false

/-- Whether a declaration says what it may say. -/
def Declaration.isRight (d : Declaration) : Bool :=
  isVersion d.version && d.encoding.all isEncodingName &&
    d.standalone.all fun t => t = ("yes" : Text) || t = ("no" : Text)

/-- Whether the declaration of a document says that it stands alone, and the rest after the
declaration; there may be none. -/
def skipDeclaration (t : Text) : Option (Bool × Text) :=
  match afterDeclarationMark? t with
  | none => some (false, t)
  | some rest =>
    match readDeclaration rest with
    | some (d, rest) =>
      if d.isRight then some (d.standalone = some ("yes" : Text), rest) else none
    | none => none

/-- The document type declaration of a document, if there is one, and the rest after it. -/
def skipDoctype (standsAlone : Bool) (t : Text) : Option (Doctype × Text) := do
  let rest ← skipMisc (t.length + 1) t
  match Text.after? "<!DOCTYPE" rest with
  | none => pure ({}, rest)
  | some rest => do
    let (d, rest) ← readDoctype standsAlone rest
    let rest ← skipMisc (rest.length + 1) rest
    pure (d, rest)

/-- The root element of a document whose lines are ended by line feeds. -/
def Node.ofText? (t : Text) : Option (Node Text) := do
  if !t.isXmlText then none
  let (standsAlone, rest) ← skipDeclaration t
  let (d, rest) ← skipDoctype standsAlone rest
  let rest ← Text.after? "<" rest
  let (root, rest) ← readElement d rest
  let rest ← skipMisc (rest.length + 1) rest
  if !rest.isEmpty || !hasGoodReferences d root then none
  pure root

/-- The root element of a document given as bytes. -/
def Node.ofBytes? (bytes : List UInt8) : Option (Node Text) :=
  (decode? bytes).bind fun t => ofText? (normalizeLines t)

end CasePlan.Xml

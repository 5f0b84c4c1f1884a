import CasePlan.Table
import CasePlan.Xml.Name

/-!
# Document type declarations

A document may declare entities and attributes before its root element.  Declarations outside the
document are not fetched; a document that refers to some is lenient towards entities that it does
not declare itself, unless it says that it stands alone.

* `readDoctype` reads a declaration.
* `Doctype.attributeValue?` is the value of an attribute as it is written: references are replaced
  and white space becomes blanks.
* `Doctype.defaults` are the attributes that an element has unless it says otherwise.
-/

namespace CasePlan.Xml

/-- An entity of a document. -/
inductive Entity where
  /-- Its replacement text stands in the declaration. -/
  | internal (value : Text)
  /-- Its replacement text stands elsewhere. -/
  | external
  /-- It is no XML at all. -/
  | unparsed

/-- What is declared about an attribute of an element. -/
structure AttributeRule where
  /-- The element. -/
  element : Text
  /-- The name of the attribute. -/
  key : Text
  /-- Whether its value is a list of tokens, in which blanks only separate. -/
  tokens : Bool
  /-- Its value if the element does not give one. -/
  default : Option Text

/-- What a document declares. -/
structure Doctype where
  /-- Entities; of several declarations the first counts. -/
  entities : List (Text × Entity) := []
  /-- Parameter entities; of several declarations the first counts. -/
  parameters : List (Text × Entity) := []
  /-- Attributes; of several declarations the first counts. -/
  rules : List AttributeRule := []
  /-- Whether there are declarations that are not read. -/
  hasUnread : Bool := false
  /-- Whether the document says that it stands alone. -/
  standsAlone : Bool := false

/-- Whether entities may be declared where nobody looks. -/
def Doctype.isLenient (d : Doctype) : Bool := d.hasUnread && !d.standsAlone

/-! ## Values -/

/-- Replaces references in the value of an attribute; `replace` gives the value of an entity's
text, `done` is the value so far, reversed. -/
def expandLoop (d : Doctype) (replace : Text → Option Text) (fuel : Nat) (t done : Text) :
    Option Text :=
  match fuel, t with
  | _, [] => some done.reverse
  | 0, _ => none
  | fuel + 1, c :: rest =>
    if c = '<' then none
    else if c = '&' then
      match readReference rest with
      | some (.character c, rest) => expandLoop d replace fuel rest (c :: done)
      | some (.entity name, rest) =>
        match Table.get? name d.entities with
        | some (.internal value) =>
          match replace value with
          | some v => expandLoop d replace fuel rest (v.reverse ++ done)
          | none => none
        | some _ => none
        | none => if d.isLenient then expandLoop d replace fuel rest done else none
      | none => none
    else expandLoop d replace fuel rest ((if isSpace c then 32 else c) :: done)

/-- The value of an attribute, with entities replaced to a depth. -/
def expand (d : Doctype) : Nat → Text → Option Text
  | 0, _ => none
  | depth + 1, t => expandLoop d (expand d depth) t.length t []

/-- How deep entities may stand in one another. -/
def entityDepth : Nat := 40

/-- The value of an attribute as it is written. -/
def Doctype.attributeValue? (d : Doctype) (t : Text) : Option Text := expand d entityDepth t

/-- A list of tokens with one blank between neighbours. -/
def joinTokens (t : Text) : Text :=
  Text.join [32] ((Text.splitOn [32] t).filter (!·.isEmpty))

/-- The value of an attribute under a rule. -/
def AttributeRule.adjust (rule? : Option AttributeRule) (t : Text) : Text :=
  match rule? with
  | some r => if r.tokens then joinTokens t else t
  | none => t

/-- What is declared about an attribute. -/
def Doctype.rule? (d : Doctype) (element key : Text) : Option AttributeRule :=
  d.rules.find? fun r => r.element = element && r.key = key

/-- The attributes that an element has unless it says otherwise. -/
def Doctype.defaults (d : Doctype) (element : Text) : List (Text × Text) :=
  (d.rules.filter (·.element = element)).filterMap fun r => r.default.map (r.key, ·)

/-! ## Reading declarations -/

/-- The value of an entity: references to characters are replaced, those to entities stay. -/
def entityValueLoop (fuel : Nat) (t done : Text) : Option Text :=
  match fuel, t with
  | _, [] => some done.reverse
  | 0, _ => none
  | fuel + 1, c :: rest =>
    if c = '%' then none
    else if c = '&' then
      match rest with
      | n :: _ =>
        if n = '#' then
          match readReference rest with
          | some (.character c, rest) => entityValueLoop fuel rest (c :: done)
          | _ => none
        else
          match readName rest with
          | some (name, s :: more) =>
            if s = ';' then entityValueLoop fuel more (s :: name.reverse ++ c :: done) else none
          | _ => none
      | [] => none
    else entityValueLoop fuel rest (c :: done)

/-- A keyword and the rest. -/
def readWord (word : Text) : Reader Unit := fun t => (Text.after? word t).map ((), ·)

/-- Where something outside the document is found: a system identifier, or a public one before
it. -/
def readExternalId (needSystem : Bool) : Reader Unit := fun t =>
  match Text.after? "SYSTEM" t with
  | some rest => (needSpace? rest).bind readLiteral |>.map fun (_, rest) => ((), rest)
  | none => do
    let rest ← Text.after? "PUBLIC" t
    let (_, rest) ← (needSpace? rest).bind readLiteral
    match (needSpace? rest).bind readLiteral with
    | some (_, rest) => pure ((), rest)
    | none => if needSystem then none else some ((), rest)

/-- The end of a declaration. -/
def readEnd (t : Text) : Option Text := Text.after? ">" (skipSpace t)

/-- Declares an entity unless it is declared already. -/
def declare (name : Text) (e : Entity) (table : List (Text × Entity)) : List (Text × Entity) :=
  if (Table.get? name table).isSome then table else table ++ [(name, e)]

/-- What an entity is declared as. -/
def readEntityDefinition (parameter : Bool) : Reader Entity := fun t =>
  match readLiteral t with
  | some (raw, rest) => (entityValueLoop raw.length raw []).map fun v => (.internal v, rest)
  | none => do
    let ((), rest) ← readExternalId true t
    match (if parameter then none else (needSpace? rest).bind (Text.after? "NDATA")) with
    | some after => do
      let (_, rest) ← (needSpace? after).bind readName
      pure (.unparsed, rest)
    | none => pure (.external, rest)

/-- An entity declaration after its keyword. -/
def readEntity (d : Doctype) (t : Text) : Option (Doctype × Text) := do
  let t ← needSpace? t
  match Text.after? "%" t with
  | some after => do
    let (name, rest) ← (needSpace? after).bind readPlainName
    let (e, rest) ← (needSpace? rest).bind (readEntityDefinition true)
    let rest ← readEnd rest
    pure ({ d with parameters := declare name e d.parameters }, rest)
  | none => do
    let (name, rest) ← readPlainName t
    let (e, rest) ← (needSpace? rest).bind (readEntityDefinition false)
    let rest ← readEnd rest
    pure ({ d with entities := declare name e d.entities }, rest)

/-- How often a part of a content model may occur. -/
def skipOccurrence (t : Text) : Text :=
  match t with
  | c :: rest => if c = '?' || c = '*' || c = '+' then rest else t
  | [] => []

mutual

/-- A part of a content model: a name or a group. -/
def skipParticle (fuel : Nat) (t : Text) : Option Text :=
  match fuel with
  | 0 => none
  | fuel + 1 =>
    match Text.after? "(" t with
    | some rest => (skipGroup fuel none (skipSpace rest)).map skipOccurrence
    | none => (readName t).map fun (_, rest) => skipOccurrence rest

/-- The parts of a group up to its bracket, all separated by one and the same sign. -/
def skipGroup (fuel : Nat) (separator : Option CodePoint) (t : Text) : Option Text :=
  match fuel with
  | 0 => none
  | fuel + 1 =>
    match (skipParticle fuel t).map skipSpace with
    | some (c :: rest) =>
      if c = ')' then some rest
      else if (c = ',' || c = '|') && (separator = none || separator = some c) then
        skipGroup fuel (some c) (skipSpace rest)
      else none
    | _ => none

end

/-- The names of mixed content up to its bracket and star. -/
def skipMixed (fuel : Nat) (t : Text) : Option Text :=
  match fuel, skipSpace t with
  | 0, _ => none
  | fuel + 1, c :: rest =>
    if c = '|' then
      match readName (skipSpace rest) with
      | some (_, rest) => skipMixed fuel rest
      | none => none
    else if c = ')' then Text.after? "*" rest
    else none
  | _, [] => none

/-- A content model. -/
def skipContentModel (t : Text) : Option Text :=
  match Text.after? "EMPTY" t, Text.after? "ANY" t with
  | some rest, _ => some rest
  | none, some rest => some rest
  | none, none => do
    let inside ← Text.after? "(" t
    match Text.after? "#PCDATA" (skipSpace inside) with
    | some rest =>
      match Text.after? ")" (skipSpace rest) with
      | some rest => some ((Text.after? "*" rest).getD rest)
      | none => skipMixed rest.length rest
    | none => skipParticle (2 * t.length) t

/-- An element declaration after its keyword. -/
def skipElement (t : Text) : Option Text := do
  let (_, rest) ← (needSpace? t).bind readName
  (needSpace? rest).bind skipContentModel |>.bind readEnd

/-- Tokens up to a bracket, separated by bars. -/
def skipChoices (readOne : Reader Text) (fuel : Nat) (t : Text) : Option Text :=
  match fuel with
  | 0 => none
  | fuel + 1 =>
    match (readOne (skipSpace t)).map fun (_, rest) => skipSpace rest with
    | some (c :: rest) =>
      if c = CodePoint.ofChar ')' then some rest
      else if c = CodePoint.ofChar '|' then skipChoices readOne fuel rest
      else none
    | _ => none

/-- The types of attributes whose values are lists of tokens; a type comes after those that begin
with it. -/
def tokenTypes : List Text :=
  ["IDREFS", "IDREF", "ID", "ENTITIES", "ENTITY", "NMTOKENS", "NMTOKEN"]

/-- The type of an attribute: whether its value is a list of tokens. -/
def readAttributeType : Reader Bool := fun t =>
  match Text.after? "CDATA" t with
  | some rest => some (false, rest)
  | none =>
    match tokenTypes.findSome? (Text.after? · t) with
    | some rest => some (true, rest)
    | none =>
      match Text.after? "NOTATION" t with
      | some rest => do
        let rest ← (needSpace? rest).bind (Text.after? "(")
        (skipChoices readName rest.length rest).map (true, ·)
      | none => do
        let rest ← Text.after? "(" t
        (skipChoices readToken rest.length rest).map (true, ·)

/-- The default of an attribute. -/
def readDefault (d : Doctype) : Reader (Option Text) := fun t =>
  match Text.after? "#REQUIRED" t, Text.after? "#IMPLIED" t with
  | some rest, _ => some (none, rest)
  | none, some rest => some (none, rest)
  | none, none => do
    let t ← match Text.after? "#FIXED" t with
      | some rest => needSpace? rest
      | none => some t
    let (raw, rest) ← readLiteral t
    let value ← d.attributeValue? raw
    pure (some value, rest)

/-- The attributes of a declaration up to its end. -/
def readAttributeRules (fuel : Nat) (element : Text) (d : Doctype) (t : Text) :
    Option (Doctype × Text) :=
  match fuel with
  | 0 => none
  | fuel + 1 =>
    match readEnd t with
    | some rest => some (d, rest)
    | none => do
      let (key, rest) ← (needSpace? t).bind readName
      let (tokens, rest) ← (needSpace? rest).bind readAttributeType
      let (value, rest) ← (needSpace? rest).bind (readDefault d)
      let rule : AttributeRule :=
        ⟨element, key, tokens, value.map fun v => if tokens then joinTokens v else v⟩
      let rules := if (d.rule? element key).isSome then d.rules else d.rules ++ [rule]
      readAttributeRules fuel element { d with rules } rest

/-- An attribute declaration after its keyword. -/
def readAttributes (d : Doctype) (t : Text) : Option (Doctype × Text) := do
  let (element, rest) ← (needSpace? t).bind readName
  readAttributeRules (rest.length + 1) element d rest

/-- A notation declaration after its keyword. -/
def skipNotation (t : Text) : Option Text := do
  let (_, rest) ← (needSpace? t).bind readPlainName
  let ((), rest) ← (needSpace? rest).bind (readExternalId false)
  readEnd rest

/-- A comment after its opening mark: two hyphens may only end it. -/
def readComment : Reader Text := fun t => do
  let (inside, rest) ← readUpTo "--" t
  let rest ← Text.after? ">" rest
  pure (inside, rest)

/-- A processing instruction after its opening mark: its target, which must not be the word that
begins a declaration, and its data. -/
def readInstruction : Reader (Text × Text) := fun t => do
  let (target, rest) ← readPlainName t
  if target.lower = ("xml" : Text) then none
  match Text.after? "?>" rest with
  | some rest => pure ((target, []), rest)
  | none => do
    let rest ← needSpace? rest
    let (data, rest) ← readUpTo "?>" rest
    pure ((target, data), rest)

/-- The declarations up to the closing bracket. -/
def readSubset (fuel : Nat) (d : Doctype) (t : Text) : Option (Doctype × Text) :=
  match fuel, skipSpace t with
  | 0, _ => none
  | fuel + 1, c :: rest =>
    if c = CodePoint.ofChar ']' then some (d, rest)
    else if c = CodePoint.ofChar '%' then
      match readName rest with
      | some (name, s :: more) =>
        if s = ';' then
          let d : Doctype := { d with hasUnread := true }
          match Table.get? name d.parameters with
          | some (.internal value) => readSubset fuel d (value ++ (32 :: more))
          | _ => readSubset fuel d more
        else none
      | _ => none
    else
      let t : Text := c :: rest
      let step : Option (Doctype × Text) :=
        match Text.after? "<!--" t, Text.after? "<?" t with
        | some rest, _ => (readComment rest).map fun (_, rest) => (d, rest)
        | none, some rest => (readInstruction rest).map fun (_, rest) => (d, rest)
        | none, none =>
          match Text.after? "<!ENTITY" t, Text.after? "<!ATTLIST" t, Text.after? "<!ELEMENT" t,
            Text.after? "<!NOTATION" t with
          | some rest, _, _, _ => readEntity d rest
          | none, some rest, _, _ => readAttributes d rest
          | none, none, some rest, _ => (skipElement rest).map (d, ·)
          | none, none, none, some rest => (skipNotation rest).map (d, ·)
          | none, none, none, none => none
      match step with
      | some (d, rest) => readSubset fuel d rest
      | none => none
  | _, [] => none

/-- A document type declaration after its opening mark, in a document that stands alone or not. -/
def readDoctype (standsAlone : Bool) (t : Text) : Option (Doctype × Text) := do
  let (_, rest) ← (needSpace? t).bind readName
  let (d, rest) : Doctype × Text ←
    match (needSpace? rest).bind (readExternalId true) with
    | some ((), rest) => pure ({ hasUnread := true, standsAlone }, rest)
    | none => pure ({ standsAlone }, rest)
  match skipSpace rest with
  | c :: rest =>
    if c = '[' then do
      let (d, rest) ← readSubset (100 * (rest.length + 1)) d rest
      let rest ← readEnd rest
      pure (d, rest)
    else if c = '>' then pure (d, rest)
    else none
  | [] => none

end CasePlan.Xml

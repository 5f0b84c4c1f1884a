import CasePlan.Logic.Rejection

/-!
# Identifiers

The identifiers of a document are put together from the name of the case, the application and the
slugs.  Names that differ can meet in one identifier, so the identifiers that come from names are
listed with their owners before anything is written, and a list in which one occurs twice is
rejected.
-/

namespace CasePlan

/-- What a case is called and which application it belongs to. -/
structure Case where
  /-- Its name. -/
  name : Text
  /-- Its application. -/
  application : Application
  deriving DecidableEq, Repr

namespace Case

/-- The identifier of the case. -/
def id (c : Case) : Text := c.name ++ "_" ++ c.application.identifier

/-- The name of the main plan item. -/
def mainItem (c : Case) : Text := c.application.slug ++ c.name

/-- The identifier of the main stage. -/
def mainStageId (c : Case) : Text := c.id ++ "stage"

/-- The identifier of the case plan model. -/
def planModelId (c : Case) : Text := c.name ++ "123"

end Case

namespace Identifier

/-- What identifiers of tasks and stages begin with: the enclosing stage or else the case. -/
def scope (parent : Option Text) (caseName : Text) : Text :=
  match parent with
  | some (c :: rest) => c :: rest
  | _ => caseName

/-- The identifier of a stage. -/
def stageId (slug : Text) : Text := slug ++ "stage"

/-- The identifier of a plan item, without its scope. -/
def planItemId (name : Text) : Text := "planItem" ++ name

/-- The identifier of a shape, without its scope. -/
def shapeId (name : Text) : Text := "CMMNShape_" ++ name

/-- How messages call the owner of an identifier. -/
def owner (word slug : Text) : Text := word ++ " '" ++ slug ++ "'"

/-- The identifiers made of names, with their owners. -/
def listed (logic : Logic) (c : Case) : List (Text × Text) :=
  let scaffold : List (Text × Text) :=
    [(c.planModelId, "the case plan model"), (shapeId c.name, "the case plan model"),
      (c.mainStageId, "the main stage"), (planItemId c.mainItem, "the main stage"),
      (shapeId c.mainItem, "the main stage")]
  scaffold ++
    (logic.stages.flatMap fun s =>
      let owner := owner "stage" s.slug
      [(planItemId (c.name ++ s.slug), owner), (shapeId (c.name ++ s.slug), owner),
        (stageId s.slug, owner)]) ++
    logic.tasks.flatMap fun t =>
      let scope := scope ((logic.stageOf? t.slug).map (·.slug)) c.name
      let owner := owner "task" t.slug
      [(planItemId (scope ++ t.slug), owner), (shapeId (scope ++ t.slug), owner),
        (scope ++ t.slug, owner)]

/-- The first identifier that occurs again, given those before. -/
def firstShared (before : List (Text × Text)) : List (Text × Text) → Option Rejection
  | [] => none
  | (id, owner) :: rest =>
    match Table.get? id before with
    | some earlier => some (.sharedId id owner earlier)
    | none => firstShared ((id, owner) :: before) rest

/-- Rejects a case two elements of which would have the same identifier. -/
def check (logic : Logic) (c : Case) : Except Rejection Unit :=
  match firstShared [] (listed logic c) with
  | some r => .error r
  | none => .ok ()

end Identifier

end CasePlan

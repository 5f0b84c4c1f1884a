import CasePlan.Json.Writer
import CasePlan.Telemetry.Log

/-!
# Metrics

A metric is kept by one of two instruments: a counter adds up amounts, a histogram counts how many
amounts there were.  Each keeps a series for every set of attributes.

Whole amounts and names that end in `_total` belong to the counter, all else to the histogram.
Amounts below zero are not kept.
-/

namespace CasePlan

/-- Names with values; their order does not matter. -/
abbrev Attributes := List (Text × Json)

/-- Whether two sets of attributes are the same. -/
def Attributes.same (a b : Attributes) : Bool := Json.same (.obj a) (.obj b)

/-- The instruments with their series. -/
structure Metrics where
  /-- The sums of the counter. -/
  sums : List (Attributes × Amount) := []
  /-- How many amounts the histogram has. -/
  counts : List (Attributes × Nat) := []

namespace Metrics

/-- Changes the series for some attributes, or starts it. -/
def update {α : Type} (attributes : Attributes) (start : α) (change : α → α) :
    List (Attributes × α) → List (Attributes × α)
  | [] => [(attributes, start)]
  | (a, value) :: rest =>
    if Attributes.same a attributes then (a, change value) :: rest
    else (a, value) :: update attributes start change rest

/-- Whether the counter keeps a metric. -/
def isCounted (name : Text) (value : Amount) : Bool :=
  (Text.before? "_total" name).isSome || value.isCount

/-- Keeps an amount of a metric. -/
def record (m : Metrics) (name : Text) (value : Amount) (attributes : Attributes) : Metrics :=
  let attributes : Attributes :=
    Table.insert ("metric" : Text) (.str name) (Table.ofList attributes)
  if value.isNegative then m
  else if isCounted name value then
    { m with sums := update attributes value (Amount.add · value) m.sums }
  else { m with counts := update attributes 1 (· + 1) m.counts }

/-- One row for each series: the instrument, the attributes and the amount. -/
def rows (m : Metrics) : List (Text × Attributes × Amount) :=
  let counts : List (Text × Attributes × Amount) :=
    m.counts.map fun (a, n) => ("compiler_duration_ms", a, .whole n)
  let sums : List (Text × Attributes × Amount) :=
    m.sums.map fun (a, value) => ("compiler_events_total", a, value)
  counts ++ sums

end Metrics

/-! ## Spans -/

namespace Attributes

/-- The scalar values that a span can carry, by their type. -/
def scalarType? : Json → Option Text
  | .null | .arr _ | .obj _ => none
  | value => some value.typeWord

/-- Whether a span can carry a value: a scalar, or an array of scalars of one type in which `null`
may stand. -/
def isCarried : Json → Bool
  | .arr items =>
    let types := (items.filter fun x => !(x matches .null)).map scalarType?
    types.all fun t => t.isSome && t == types.head?.join
  | value => (scalarType? value).isSome

/-- The attributes that a span keeps of some given ones. -/
def carried (given : Attributes) : Attributes :=
  given.filter fun (name, value) => !name.isEmpty && isCarried value

end Attributes

end CasePlan

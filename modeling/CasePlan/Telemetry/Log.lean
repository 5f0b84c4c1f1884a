import CasePlan.Json.Basic

/-!
# Log records

A record has a level and a message, and may carry further values and an exception.  A log keeps the
records from a level upwards.

`Message.text` words a message.  How a duration is written is left to the reader of the log
(`Message.textWith`), since no two runs take the same time.
-/

namespace CasePlan

/-- How much a record matters, from least to most. -/
inductive Level where
  /-- Single steps. -/
  | trace
  /-- What happens inside. -/
  | debug
  /-- What happens. -/
  | info
  /-- What went well. -/
  | success
  /-- What may go wrong. -/
  | warning
  /-- What went wrong. -/
  | error
  /-- What stops everything. -/
  | critical
  deriving DecidableEq, Repr

namespace Level

/-- The word for a level. -/
def word : Level → Text
  | trace => "TRACE"
  | debug => "DEBUG"
  | info => "INFO"
  | success => "SUCCESS"
  | warning => "WARNING"
  | error => "ERROR"
  | critical => "CRITICAL"

/-- All levels, from least to most. -/
def all : List Level := [trace, debug, info, success, warning, error, critical]

/-- The level meant by a word. -/
def ofWord? (t : Text) : Option Level := all.find? (·.word = t)

@[simp] theorem ofWord?_word (l : Level) : ofWord? l.word = some l := by
  cases l <;> rfl

/-- The place of a level among all. -/
def rank (l : Level) : Nat := all.idxOf l

/-- Whether a record of the second level belongs in a log from the first level upwards. -/
def admits (least l : Level) : Bool := least.rank ≤ l.rank

/-- The wording for a word that means no level. -/
def unknownMessage (t : Text) : Text := "Level '" ++ t ++ "' does not exist"

end Level

/-- A span of time as a message gives it. -/
inductive Duration where
  /-- Seconds, with three places. -/
  | seconds (value : Float)
  /-- Milliseconds, with two places. -/
  | milliseconds (value : Float)
  /-- A number as it is. -/
  | plain (value : Float)

namespace Duration

/-- A double with a number of places. -/
def fixed (places : Nat) (x : Float) : Text :=
  match Decimal.ofFloat? x with
  | none => Decimal.ofFloat x
  | some b =>
    let (num, den) := b.ratio
    let scaled := Decimal.roundDiv (num * Nat.pow 10 places) den
    let sign : Text := if b.negative then "-" else []
    let fraction : Text := Text.ofDigits 10 (scaled % Nat.pow 10 places) places
    sign ++ Text.ofNat (scaled / Nat.pow 10 places) ++ "." ++ fraction

/-- The usual text of a duration. -/
def text : Duration → Text
  | seconds x => fixed 3 x
  | milliseconds x => fixed 2 x
  | plain x => Decimal.ofFloat x

end Duration

/-- The value of a metric. -/
inductive Amount where
  /-- True counts as one, false as zero. -/
  | truth (value : Bool)
  /-- A whole number. -/
  | whole (value : Int)
  /-- Any other number. -/
  | real (value : Float)

namespace Amount

/-- Whether things are counted with it. -/
def isCount : Amount → Bool
  | truth _ | whole _ => true
  | real _ => false

/-- The amount as a double. -/
def toFloat : Amount → Float
  | truth b => if b then 1.0 else 0.0
  | whole n => Decimal.ofInt n
  | real x => x

/-- Whether it is below zero. -/
def isNegative : Amount → Bool
  | truth _ => false
  | whole n => n < 0
  | real x => x < 0.0

/-- The whole number that an amount counts; a fraction counts nothing. -/
def count : Amount → Int
  | truth b => if b then 1 else 0
  | whole n => n
  | real _ => 0

/-- The sum of two amounts, whole if both are counts. -/
def add : Amount → Amount → Amount
  | real x, b => real (x + b.toFloat)
  | a, real y => real (a.toFloat + y)
  | a, b => whole (a.count + b.count)

/-- The text of an amount in a message. -/
def text : Amount → Text
  | truth b => (Json.bool b).shown
  | whole n => Text.ofInt n
  | real x => Decimal.ofFloat x

end Amount

/-- What a record says. -/
inductive Message where
  /-- A given text. -/
  | plain (text : Text)
  /-- Recording has begun. -/
  | started (service : Text) (level : Level)
  /-- A metric was recorded. -/
  | metric (name : Text) (value : Amount)
  /-- A timer has run out. -/
  | timer (name : Text) (seconds : Float)
  /-- A function has returned. -/
  | executed (name : Text) (milliseconds : Float) (result? : Option Text)
  /-- A function has failed. -/
  | failed (name cause : Text)

/-- Whether a metric holds durations, by its name. -/
def isDurationMetric (name : Text) : Bool := (Text.before? "_duration" name).isSome

namespace Message

/-- How many code points of a result a message shows. -/
def resultLimit : Nat := 200

/-- The wording of a message, given how durations are written. -/
def textWith (duration : Duration → Text) : Message → Text
  | plain text => text
  | started service level =>
    "Observability initialized: service=" ++ service ++ ", log_level=" ++ level.word
  | metric name value =>
    let shown := if isDurationMetric name then duration (.plain value.toFloat) else value.text
    "Metric recorded: " ++ name ++ "=" ++ shown
  | timer name seconds => "Timer '" ++ name ++ "': " ++ duration (.seconds seconds) ++ "s"
  | executed name milliseconds result? =>
    let suffix : Text := match result? with
      | some result => " -> " ++ (result.take resultLimit : Text)
      | none => []
    "Function executed: " ++ name ++ " (" ++ duration (.milliseconds milliseconds) ++ "ms)" ++
      suffix
  | failed name cause => "Function failed: " ++ name ++ ": " ++ cause

/-- The wording of a message. -/
def text (m : Message) : Text := m.textWith Duration.text

end Message

/-- An exception in a record. -/
structure Raised where
  /-- The word for its type. -/
  type : Text
  /-- What it says. -/
  value : Text
  deriving DecidableEq, Repr

/-- A log record. -/
structure Record where
  /-- Its level. -/
  level : Level
  /-- What it says. -/
  message : Message
  /-- Values bound to it, as texts. -/
  extra : List (Text × Text) := []
  /-- The exception that it reports. -/
  raised? : Option Raised := none

/-- How a line of a plain log begins: the level, filled up to the longest. -/
def Record.label (r : Record) : Text := r.level.word.padRight 8

end CasePlan

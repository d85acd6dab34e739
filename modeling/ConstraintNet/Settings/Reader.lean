/-
  ConstraintNet.Settings.Reader
  ─────────────────────────────
  **SETTINGS FROM A JSON TEXT.**

  Settings are an object whose keys are the four choices, each of which may
  be missing and none given twice, or an array with the first of the four
  choices in their order.  A choice is the name of an alternative, as a string
  or as the only key of an object with the value `null`.  Other keys are
  passed over with whatever value they have.

  Reading is a walk over the tokens: `step` says which tokens a stage admits.
  Values that are passed over may be nested to any depth; `Skip` keeps the
  open brackets on a stack.
-/
import ConstraintNet.JsonToken
import ConstraintNet.Settings

namespace ConstraintNet

/-! ## §1. The choices by name. -/

/-- One of the four choices. -/
inductive Choice where
  | algorithm
  | variableOrdering
  | valueOrdering
  | requeuePolicy
  deriving Repr, DecidableEq

/-- The key of a choice. -/
def Choice.key : Choice → String
  | .algorithm => "algorithm"
  | .variableOrdering => "variable_ordering"
  | .valueOrdering => "value_ordering"
  | .requeuePolicy => "requeue_policy"

/-- The choices in their order. -/
def Choice.all : List Choice := [.algorithm, .variableOrdering, .valueOrdering, .requeuePolicy]

/-- The choice with a key. -/
def Choice.ofKey? (key : String) : Option Choice := Choice.all.find? fun choice => choice.key = key

/-- The algorithm with a name. -/
def Algorithm.ofName? (name : String) : Option Algorithm :=
  [Algorithm.forwardChecking, .maintainingArcConsistency].find? fun x => x.name = name

/-- The variable ordering with a name. -/
def VariableOrdering.ofName? (name : String) : Option VariableOrdering :=
  [VariableOrdering.minimumRemainingValues, .selectFirst].find? fun x => x.name = name

/-- The value ordering with a name. -/
def ValueOrdering.ofName? (name : String) : Option ValueOrdering :=
  [ValueOrdering.ascending, .descending].find? fun x => x.name = name

/-- The requeue policy with a name. -/
def RequeuePolicy.ofName? (name : String) : Option RequeuePolicy :=
  [RequeuePolicy.symmetric, .legacy].find? fun x => x.name = name

/-- The choices that were made so far. -/
structure PartialSettings where
  algorithm : Option Algorithm
  variableOrdering : Option VariableOrdering
  valueOrdering : Option ValueOrdering
  requeuePolicy : Option RequeuePolicy

namespace PartialSettings

/-- No choice was made. -/
def none : PartialSettings := ⟨.none, .none, .none, .none⟩

/-- Whether a choice was made. -/
def has (given : PartialSettings) : Choice → Bool
  | .algorithm => given.algorithm.isSome
  | .variableOrdering => given.variableOrdering.isSome
  | .valueOrdering => given.valueOrdering.isSome
  | .requeuePolicy => given.requeuePolicy.isSome

/-- The choices with one more, given by name; nothing for a name that no alternative has. -/
def choose? (given : PartialSettings) (choice : Choice) (name : String) : Option PartialSettings :=
  match choice with
  | .algorithm =>
    (Algorithm.ofName? name).map fun x => { given with algorithm := some x }
  | .variableOrdering =>
    (VariableOrdering.ofName? name).map fun x => { given with variableOrdering := some x }
  | .valueOrdering =>
    (ValueOrdering.ofName? name).map fun x => { given with valueOrdering := some x }
  | .requeuePolicy =>
    (RequeuePolicy.ofName? name).map fun x => { given with requeuePolicy := some x }

/-- The settings with every missing choice as in others. -/
def completeWith (given : PartialSettings) (others : Settings) : Settings :=
  { algorithm := given.algorithm.getD others.algorithm
    variableOrdering := given.variableOrdering.getD others.variableOrdering
    valueOrdering := given.valueOrdering.getD others.valueOrdering
    requeuePolicy := given.requeuePolicy.getD others.requeuePolicy }

end PartialSettings

namespace SettingsText

/-! ## §2. Values that are passed over. -/

/-- A bracket that is open. -/
inductive Bracket where
  | brace
  | bracket
  deriving Repr, DecidableEq

/-- What comes next inside a value that is passed over. -/
inductive Skip where
  | value
  /-- The first element of an array, or its end. -/
  | firstElement
  /-- The first key of an object, or its end. -/
  | firstKey
  | key
  | colon
  /-- A comma, or the end of the innermost array or object. -/
  | next
  deriving Repr, DecidableEq

/-- What comes after a whole value inside the open brackets, if any is open. -/
def afterSkipped (opened : List Bracket) : Option (Skip × List Bracket) :=
  if opened.isEmpty then none else some (.next, opened)

/-- The start of a value: the inner `none` ends the value that is passed over. -/
def skipValue (opened : List Bracket) (token : JsonToken) :
    Option (Option (Skip × List Bracket)) :=
  match token with
  | .openBrace => some (some (.firstKey, .brace :: opened))
  | .openBracket => some (some (.firstElement, .bracket :: opened))
  | .null | .truth | .number | .string _ => some (afterSkipped opened)
  | _ => none

/-- One token of a value that is passed over: the outer `none` is a fault, the inner one the end of
the value. -/
def skipStep (skip : Skip) (opened : List Bracket) (token : JsonToken) :
    Option (Option (Skip × List Bracket)) :=
  match skip, token, opened with
  | .firstElement, .closeBracket, .bracket :: outer => some (afterSkipped outer)
  | .firstKey, .closeBrace, .brace :: outer => some (afterSkipped outer)
  | .next, .closeBracket, .bracket :: outer => some (afterSkipped outer)
  | .next, .closeBrace, .brace :: outer => some (afterSkipped outer)
  | .next, .comma, .bracket :: _ => some (some (.value, opened))
  | .next, .comma, .brace :: _ => some (some (.key, opened))
  | .firstKey, .string _, _ => some (some (.colon, opened))
  | .key, .string _, _ => some (some (.colon, opened))
  | .colon, .colon, _ => some (some (.value, opened))
  | .value, _, _ => skipValue opened token
  | .firstElement, _, _ => skipValue opened token
  | _, _, _ => none

/-! ## §3. Stages. -/

/-- Where a choice stands. -/
inductive Place where
  /-- In an object. -/
  | member
  /-- In an array, with the choices that may still follow. -/
  | element (later : List Choice)
  deriving Repr, DecidableEq

/-- What comes next in a settings text. -/
inductive Stage where
  | start
  /-- The first key of the object, or its end. -/
  | firstKey
  | key
  /-- The colon after a key, which names a choice or nothing. -/
  | colon (choice : Option Choice)
  /-- A comma, or the end of the object. -/
  | nextMember
  /-- The first element of the array, or its end. -/
  | firstElement
  /-- A comma, or the end of the array. -/
  | nextElement (later : List Choice)
  /-- The name of an alternative, or an object around it. -/
  | name (choice : Choice) (place : Place)
  | wrappedName (choice : Choice) (place : Place)
  | wrappedColon (place : Place)
  | wrappedNull (place : Place)
  | wrappedEnd (place : Place)
  /-- A value that is passed over. -/
  | skipped (skip : Skip) (opened : List Bracket)
  /-- The end of the text. -/
  | finished
  deriving Repr, DecidableEq

/-- The stage after a choice. -/
def Place.next : Place → Stage
  | .member => .nextMember
  | .element later => .nextElement later

/-- The stage after a key; a choice that was made already is a fault. -/
def afterKey (given : PartialSettings) (key : String) : Option Stage :=
  match Choice.ofKey? key with
  | none => some (.colon none)
  | some choice => if given.has choice then none else some (.colon (some choice))

/-- The start of a choice. -/
def startName (given : PartialSettings) (choice : Choice) (place : Place) (token : JsonToken) :
    Option (PartialSettings × Stage) :=
  match token with
  | .string (some name) => (given.choose? choice name).map fun given => (given, place.next)
  | .openBrace => some (given, .wrappedName choice place)
  | _ => none

/-- The choices and the stage after one more token; `none` when the stage does not admit it. -/
def step (state : PartialSettings × Stage) (token : JsonToken) :
    Option (PartialSettings × Stage) :=
  let (given, stage) := state
  match stage, token with
  | .start, .openBrace => some (given, .firstKey)
  | .start, .openBracket => some (given, .firstElement)
  | .firstKey, .closeBrace => some (given, .finished)
  | .firstKey, .string (some key) => (afterKey given key).map (given, ·)
  | .key, .string (some key) => (afterKey given key).map (given, ·)
  | .colon (some choice), .colon => some (given, .name choice .member)
  | .colon none, .colon => some (given, .skipped .value [])
  | .nextMember, .comma => some (given, .key)
  | .nextMember, .closeBrace => some (given, .finished)
  | .firstElement, .closeBracket => some (given, .finished)
  | .firstElement, token =>
    startName given .algorithm
      (.element [.variableOrdering, .valueOrdering, .requeuePolicy]) token
  | .nextElement (choice :: later), .comma => some (given, .name choice (.element later))
  | .nextElement _, .closeBracket => some (given, .finished)
  | .name choice place, token => startName given choice place token
  | .wrappedName choice place, .string (some name) =>
    (given.choose? choice name).map fun given => (given, .wrappedColon place)
  | .wrappedColon place, .colon => some (given, .wrappedNull place)
  | .wrappedNull place, .null => some (given, .wrappedEnd place)
  | .wrappedEnd place, .closeBrace => some (given, place.next)
  | .skipped skip opened, token =>
    (skipStep skip opened token).map fun
      | some (skip, opened) => (given, .skipped skip opened)
      | none => (given, .nextMember)
  | _, _ => none

/-- The choices that tokens make, from a given state on. -/
def choices? (state : PartialSettings × Stage) : List JsonToken → Option PartialSettings
  | [] => if state.2 = .finished then some state.1 else none
  | token :: rest =>
    match step state token with
    | none => none
    | some state => choices? state rest

end SettingsText

/-- The settings that a JSON text describes; missing choices are the standard ones. -/
def Settings.ofText? (text : String) : Option Settings :=
  ((JsonToken.tokens? text).bind (SettingsText.choices? (.none, .start))).map fun given =>
    given.completeWith Settings.standard

/-- The settings as a JSON text with one line per choice. -/
def Settings.toText (settings : Settings) : String :=
  let member (choice : Choice) (name : String) : String :=
    "  \"" ++ choice.key ++ "\": \"" ++ name ++ "\""
  "\x7b\n" ++ member .algorithm settings.algorithm.name ++ ",\n"
    ++ member .variableOrdering settings.variableOrdering.name ++ ",\n"
    ++ member .valueOrdering settings.valueOrdering.name ++ ",\n"
    ++ member .requeuePolicy settings.requeuePolicy.name ++ "\n\x7d"

end ConstraintNet

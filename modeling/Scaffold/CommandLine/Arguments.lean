import Scaffold.CommandLine.Parameter

/-! Matching arguments to parameters. A value is looked at when the next parameter begins, so an
    argument that is no parameter at all is reported before a wrong value in front of it. -/

namespace Scaffold.CommandLine

/-- What has been matched: values by parameter, and a parameter whose value is missing or has not
    been looked at yet. -/
structure Matched where
  given : List (String × List String)
  pending : Option (Parameter × Option String)

namespace Matched

def empty : Matched := ⟨[], none⟩

def values (m : Matched) (name : String) : List String := (m.given.lookup name).getD []

/-- The last value of a parameter. -/
def value? (m : Matched) (name : String) : Option String := (m.values name).getLast?

def has (m : Matched) (name : String) : Bool := (m.given.lookup name).isSome

def add (m : Matched) (name value : String) : Matched :=
  { m with given := (name, m.values name ++ [value]) :: m.given.filter (·.1 ≠ name) }

def take (m : Matched) (p : Parameter) (kind : ValueKind) (repeats : Bool) (value : String) :
    Except Stop Matched := do
  if m.has p.name && !repeats then throw (.misuse (.repeated p.display))
  kind.check p value
  return m.add p.name value

/-- Looks at the value that is pending. -/
def resolve (m : Matched) : Except Stop Matched :=
  match m.pending with
  | none => .ok m
  | some (p, none) => .error (.misuse (.noValue p.display))
  | some (p, some value) =>
    match p.form with
    | .option kind repeats => { m with pending := none }.take p kind repeats value
    | .positional kind => { m with pending := none }.take p kind false value
    | .flag | .help | .version => .ok { m with pending := none }

/-- A parameter that takes no value. -/
def takeFlag (m : Matched) (p : Parameter) : Except Stop Matched := do
  let m ← m.resolve
  match p.form with
  | .help => throw .help
  | .version => throw .version
  | _ => m.take p .text false "true"

/-- A parameter that takes a value, which may be attached to it. -/
def takeOption (m : Matched) (p : Parameter) (kind : ValueKind) (repeats : Bool)
    (attached : Option String) : Except Stop Matched := do
  let m ← m.resolve
  match attached with
  | some value => m.take p kind repeats value
  | none => return { m with pending := some (p, none) }

/-- A parameter given by its long name. -/
def takeLong (m : Matched) (params : List Parameter) (name : String) (attached : Option String) :
    Except Stop Matched :=
  match params.find? fun p => p.name = name with
  | none => .error (.misuse (.unexpectedArgument ("--" ++ name)))
  | some p =>
    match p.form, attached with
    | .option kind repeats, _ => m.takeOption p kind repeats attached
    | .positional _, _ => .error (.misuse (.unexpectedArgument ("--" ++ name)))
    | _, some value => .error (.misuse (.unneededValue value p.display))
    | _, none => m.takeFlag p

/-- Parameters given by their short names behind one dash. -/
def takeShort (m : Matched) (params : List Parameter) : List Char → Except Stop Matched
  | [] => .ok m
  | c :: rest =>
    match params.find? fun p => p.short = some c with
    | none => .error (.misuse (.unexpectedArgument (String.ofList ['-', c])))
    | some p =>
      match p.form with
      | .option kind repeats =>
        let attached := match rest with
          | [] => none
          | '=' :: value => some (String.ofList value)
          | value => some (String.ofList value)
        m.takeOption p kind repeats attached
      | _ => do (← m.takeFlag p).takeShort params rest

end Matched

/-- What an argument looks like. -/
inductive Shape where
  /-- only positional arguments follow -/
  | divider
  | long (name : String) (attached : Option String)
  | short (names : List Char)
  | plain

def shape (arg : String) : Shape :=
  match arg.toList with
  | ['-', '-'] => .divider
  | '-' :: '-' :: rest =>
    match rest.span (· ≠ '=') with
    | (name, _ :: value) => .long (String.ofList name) (some (String.ofList value))
    | (name, []) => .long (String.ofList name) none
  | '-' :: c :: rest => .short (c :: rest)
  | _ => .plain

/-- An argument that belongs to the pending parameter or else to the positional one, which may be
    given once. -/
def takePlain (positional : List Parameter) (m : Matched) (arg : String) (divided : Bool) :
    Except Stop (List Parameter × Matched) :=
  match m.pending, divided with
  | some (p, none), false => .ok (positional, { m with pending := some (p, some arg) })
  | _, _ =>
    match positional with
    | [] => .error (.misuse (.unexpectedArgument arg))
    | p :: rest => do
      let m ← m.resolve
      return (rest, { m with pending := some (p, some arg) })

def matchArgs (params : List Parameter) :
    List Parameter → Bool → Matched → List String → Except Stop Matched
  | _, _, m, [] => m.resolve
  | positional, divided, m, arg :: rest =>
    if divided then do
      let (positional, m) ← takePlain positional m arg true
      matchArgs params positional true m rest
    else match shape arg with
      | .divider => matchArgs params positional true m rest
      | .long name attached => do
        matchArgs params positional false (← m.takeLong params name attached) rest
      | .short names => do
        matchArgs params positional false (← m.takeShort params names) rest
      | .plain => do
        let (positional, m) ← takePlain positional m arg false
        matchArgs params positional false m rest

end Scaffold.CommandLine

/-!
# Options on a command line

An option has a long name, led by two hyphens, and may have a letter, led by one. Some take a
value: behind an equals sign or as the next argument after a long name; in the same or the next
argument after a letter. Letters may share one argument. Two hyphens alone end the options.
-/

namespace SliceLint

/-- An option that a command knows. -/
structure OptionForm where
  name : String
  letter? : Option Char
  takesValue : Bool
deriving DecidableEq, Repr

/-- Why arguments make no command. -/
inductive UsageFault where
  | unknownOption (text : String)
  | missingValue (name : String)
  | unwantedValue (name : String)
  | badValue (name value : String)
  | missingCommand
  | unknownCommand (name : String)
  | unexpected (text : String)
deriving DecidableEq, Repr

def UsageFault.message : UsageFault → String
  | unknownOption text => "No such option: " ++ text
  | missingValue name => "Option '--" ++ name ++ "' requires an argument."
  | unwantedValue name => "Option '--" ++ name ++ "' does not take a value."
  | badValue name value => "Invalid value for '" ++ name ++ "': '" ++ value ++ "'"
  | missingCommand => "Missing command."
  | unknownCommand name => "No such command '" ++ name ++ "'."
  | unexpected text => "Got unexpected extra argument (" ++ text ++ ")"

/-- An option that was given, by its long name, with its value. -/
abbrev GivenOption := String × Option String

/-- The options and the other arguments of a command. -/
structure Arguments where
  options : List GivenOption
  others : List String
deriving DecidableEq, Repr

namespace Arguments

def empty : Arguments := ⟨[], []⟩

/-- Put options before the others. -/
def withOptions (options : List GivenOption) (a : Arguments) : Arguments :=
  { a with options := options ++ a.options }

/-- Put an argument before the others. -/
def withOther (text : String) (a : Arguments) : Arguments := { a with others := text :: a.others }

/-- An option was given. -/
def has (a : Arguments) (name : String) : Bool := a.options.any (·.1 == name)

/-- The value of an option; the last one given counts. -/
def value? (a : Arguments) (name : String) : Option String :=
  (a.options.reverse.lookup name).join

end Arguments

namespace OptionForm

/-- Cut a text at its first equals sign. -/
def cutValue (text : String) : String × Option String :=
  let cs := text.toList
  let name := cs.takeWhile (· != '=')
  (String.ofList name,
    match cs.drop name.length with
    | [] => none
    | _ :: value => some (String.ofList value))

/-- The options that letters stand for, and the option that still needs a value. -/
def readLetters (forms : List OptionForm) :
    List Char → Except UsageFault (List GivenOption × Option OptionForm)
  | [] => .ok ([], none)
  | c :: rest =>
    match forms.find? (·.letter? == some c) with
    | none => .error (.unknownOption (String.ofList ['-', c]))
    | some form =>
      if form.takesValue then
        if rest.isEmpty then .ok ([], some form)
        else .ok ([(form.name, some (String.ofList rest))], none)
      else (readLetters forms rest).map fun (given, waiting) => ((form.name, none) :: given, waiting)

/-- What one argument gives: options, and the option that needs the next argument as its value. -/
def readOption (forms : List OptionForm) (text : String) :
    Except UsageFault (List GivenOption × Option OptionForm) :=
  let (lead, value?) := cutValue text
  match forms.find? fun form => "--" ++ form.name == lead with
  | some form =>
    match form.takesValue, value? with
    | true, some value => .ok ([(form.name, some value)], none)
    | true, none => .ok ([], some form)
    | false, some _ => .error (.unwantedValue form.name)
    | false, none => .ok ([(form.name, none)], none)
  | none =>
    if text.startsWith "--" then .error (.unknownOption lead)
    else readLetters forms (text.toList.drop 1)

/-- Read arguments. Options may come behind other arguments or not; the second argument is the
option that waits for its value. -/
def readFrom (forms : List OptionForm) (mixed : Bool) :
    Option OptionForm → List String → Except UsageFault Arguments
  | some form, [] => .error (.missingValue form.name)
  | none, [] => .ok .empty
  | some form, text :: rest =>
    (readFrom forms mixed none rest).map (.withOptions [(form.name, some text)])
  | none, text :: rest =>
    if text == "--" then .ok ⟨[], rest⟩
    else if text.startsWith "-" && text != "-" then
      match readOption forms text with
      | .error f => .error f
      | .ok (given, waiting) => (readFrom forms mixed waiting rest).map (.withOptions given)
    else if mixed then (readFrom forms mixed none rest).map (.withOther text)
    else .ok ⟨[], text :: rest⟩

/-- Read the arguments of a command. -/
def read (forms : List OptionForm) (mixed : Bool) (args : List String) :
    Except UsageFault Arguments :=
  readFrom forms mixed none args

end OptionForm

end SliceLint

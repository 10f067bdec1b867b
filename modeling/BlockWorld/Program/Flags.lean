import BlockWorld.Log.Level
import BlockWorld.Text.Integer
import BlockWorld.Text.Quoted
/-!
Options on a command line, such as `-src save.zip` or `--src=save.zip`. An option takes a value,
unless it is a switch. The options end at the first argument that is none.
-/
namespace BlockWorld.Program

/-- An option. -/
structure Flag where
  name : String
  /-- A switch is on unless its own argument says otherwise. -/
  isSwitch : Bool
  /-- Why a value is refused. -/
  refusal? : String → Option String

/-- An option that takes any text. -/
def Flag.text (name : String) : Flag := ⟨name, false, fun _ => none⟩

/-- A switch. -/
def Flag.switch (name : String) : Flag :=
  ⟨name, true, fun value =>
    if value ∈ ["1", "t", "T", "TRUE", "true", "True", "0", "f", "F", "FALSE", "false", "False"] then none
    else some "parse error"⟩

/-! ## Options of the store's own log -/

/-- Why a text is no whole number. -/
def numberRefusal? (value : String) : Option String :=
  match Text.readInteger value.toList with
  | .ok _ => none
  | .error e => some ("strconv.Atoi: parsing " ++ Text.quote value ++ ": " ++ e.message)

/-- Why a text is no severity, which has a name or a number. -/
def severityRefusal? (value : String) : Option String :=
  if String.ofList (value.toList.map Log.Level.capital) ∈ ["INFO", "WARNING", "ERROR", "FATAL"] then none
  else numberRefusal? value

/-- Why a text is no list of levels for files, such as `table=2,value*=1`. -/
def modulesRefusal? (value : String) : Option String :=
  let form := some "syntax error: expect comma-separated list of filename=N"
  ((value.splitOn ",").filter (· != "")).findSome? fun item =>
    match item.splitOn "=" with
    | [name, level] =>
      if name = "" then form
      else
        match Text.readInteger level.toList with
        | .ok n => if n < 0 then some "negative value for vmodule level" else none
        | .error _ => form
    | _ => form

/-- Why a text is no line of a file, such as `value.txt:12`. -/
def lineRefusal? (value : String) : Option String :=
  let form := some "syntax error: expect file.go:234"
  if value = "" then none
  else
    match value.splitOn ":" with
    | [file, line] =>
      if !file.toList.contains '.' then form
      else
        match Text.readInteger line.toList with
        | .ok n => if n ≤ 0 then some "negative or zero value for line" else none
        | .error _ => form
    | _ => form

/-- The options about the log that the store keeps for itself. They change nothing that is shown. -/
def storeFlags : List Flag :=
  [.switch "logtostderr", .switch "alsologtostderr", ⟨"v", false, numberRefusal?⟩,
   ⟨"stderrthreshold", false, severityRefusal?⟩, ⟨"vmodule", false, modulesRefusal?⟩,
   ⟨"log_backtrace_at", false, lineRefusal?⟩, .text "log_dir"]

/-! ## Command lines -/

/-- Why a command line is refused. -/
inductive FlagError where
  /-- The user asked for help. -/
  | help
  | undefined (name : String)
  | noValue (name : String)
  | badForm (argument : String)
  | badSwitch (name value reason : String)
  | badValue (name value reason : String)
  deriving DecidableEq, Repr

namespace FlagError

/-- What is said before the summary of all options. -/
def message? : FlagError → Option String
  | .help => none
  | .undefined name => some ("flag provided but not defined: -" ++ name)
  | .noValue name => some ("flag needs an argument: -" ++ name)
  | .badForm argument => some ("bad flag syntax: " ++ argument)
  | .badSwitch name value reason =>
    some ("invalid boolean value " ++ Text.quote value ++ " for -" ++ name ++ ": " ++ reason)
  | .badValue name value reason =>
    some ("invalid value " ++ Text.quote value ++ " for flag -" ++ name ++ ": " ++ reason)

/-- The lines of what is said before the summary. -/
def lines (e : FlagError) : List String := e.message?.toList.flatMap fun s => s.splitOn "\n"

/-- The exit code. -/
def exitCode : FlagError → Nat
  | .help => 0
  | _ => 2

end FlagError

/-- What an argument is. -/
inductive Argument where
  /-- The end of the options. -/
  | stop
  | bad
  | option (name : String) (value : Option String)

/-- Takes an argument apart. -/
def Argument.read (s : String) : Argument :=
  let named (cs : List Char) : Argument :=
    match cs with
    | [] => .bad
    | c :: _ =>
      if c = '-' ∨ c = '=' then .bad
      else
        match cs.span (· != '=') with
        | (name, _ :: value) => .option (String.ofList name) (some (String.ofList value))
        | (name, []) => .option (String.ofList name) none
  match s.toList with
  | ['-'] => .stop
  | ['-', '-'] => .stop
  | '-' :: '-' :: rest => named rest
  | '-' :: rest => named rest
  | _ => .stop

/-- The values of options, the latest first. -/
abbrev FlagValues := List (String × String)

/-- Sets an option, if it takes the value. -/
def Flag.set (f : Flag) (value : String) (done : FlagValues) : Except FlagError FlagValues :=
  match f.refusal? value with
  | none => .ok ((f.name, value) :: done)
  | some reason =>
    .error (if f.isSwitch then .badSwitch f.name value reason else .badValue f.name value reason)

/-- Reads the options of a command line. -/
def readFlags (known : List Flag) : (done : FlagValues) → List String → Except FlagError FlagValues
  | done, [] => .ok done
  | done, s :: rest =>
    match Argument.read s with
    | .stop => .ok done
    | .bad => .error (.badForm s)
    | .option name value =>
      match known.find? (·.name == name), value with
      | none, _ => .error (if name = "help" ∨ name = "h" then .help else .undefined name)
      | some f, some value => do readFlags known (← f.set value done) rest
      | some f, none =>
        if f.isSwitch then do readFlags known (← f.set "true" done) rest
        else
          match rest with
          | value :: rest => do readFlags known (← f.set value done) rest
          | [] => .error (.noValue name)

/-- The value of an option, or a default. -/
def flag (flags : FlagValues) (name fallback : String) : String :=
  (flags.lookup name).getD fallback

end BlockWorld.Program

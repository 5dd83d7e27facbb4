/-!
# Options

The arguments of the command line, read from left to right; of an option given twice the last one
counts.
-/

namespace FxStack.CommandLine

/-! ### Problems -/

def usage : String :=
  "usage: fx-stack --stack <stack.json> --input <in.png> --output <out.png> "
    ++ "[--catalog <effects.json>] [--dump-glsl] [--seed <u64>] [--verbose]"

/-- Why a text is no unsigned integer of 64 bits. -/
inductive IntegerError where
  | empty | invalidDigit | tooLarge
deriving DecidableEq

def IntegerError.message : IntegerError → String
  | .empty => "cannot parse integer from empty string"
  | .invalidDigit => "invalid digit found in string"
  | .tooLarge => "number too large to fit in target type"

/-- Why the arguments are refused. Asking for help ends the program too. -/
inductive ArgumentError where
  | missingValue (flag : String)
  | badSeed (text : String) (e : IntegerError)
  | help
  | unknown (argument : String)
deriving DecidableEq

namespace ArgumentError

/-- The problem without its cause. -/
def headline : ArgumentError → String
  | .missingValue flag => "missing value for " ++ flag
  | .badSeed text _ => "--seed expects an unsigned integer, got " ++ text
  | .help => usage
  | .unknown argument => "unknown argument: " ++ argument ++ "\n" ++ usage

def message (e : ArgumentError) : String :=
  match e with
  | .badSeed _ cause => e.headline ++ ": " ++ cause.message
  | _ => e.headline

end ArgumentError

/-! ### Integers -/

/-- The number that goes on with the given digits. The first problem from the left counts. -/
def readDigits (n : Nat) : List Char → Except IntegerError UInt64
  | [] => .ok (UInt64.ofNat n)
  | c :: cs =>
    if '0' ≤ c ∧ c ≤ '9' then
      let n := 10 * n + (c.toNat - '0'.toNat)
      if n < 0x10000000000000000 then readDigits n cs else .error .tooLarge
    else .error .invalidDigit

/-- An unsigned integer of 64 bits. A plus sign may come first. -/
def readInteger (s : String) : Except IntegerError UInt64 :=
  match s.toList with
  | [] => .error .empty
  | ['+'] => .error .invalidDigit
  | '+' :: cs => readDigits 0 cs
  | cs => readDigits 0 cs

/-! ### Options -/

/-- What the arguments ask for. -/
structure Options where
  stack : Option String
  input : Option String
  output : Option String
  catalog : Option String
  dumpGlsl : Bool
  seed : Option UInt64
  verbose : Bool
deriving DecidableEq

namespace Options

/-- The options without arguments. -/
def unset : Options := ⟨none, none, none, none, false, none, false⟩

def switch? (flag : String) : Option (Options → Options) :=
  if flag = "--dump-glsl" then some fun o => { o with dumpGlsl := true }
  else if flag = "--verbose" ∨ flag = "-v" then some fun o => { o with verbose := true }
  else none

/-- What a flag sets to the argument after it. -/
def setting? (flag : String) : Option (String → Except ArgumentError (Options → Options)) :=
  if flag = "--stack" then some fun v => .ok fun o => { o with stack := some v }
  else if flag = "--input" then some fun v => .ok fun o => { o with input := some v }
  else if flag = "--output" then some fun v => .ok fun o => { o with output := some v }
  else if flag = "--catalog" then some fun v => .ok fun o => { o with catalog := some v }
  else if flag = "--seed" then some fun v =>
    match readInteger v with
    | .ok n => .ok fun o => { o with seed := some n }
    | .error e => .error (.badSeed v e)
  else none

def refuse (flag : String) : ArgumentError :=
  if flag = "--help" ∨ flag = "-h" then .help else .unknown flag

/-- The options after some more arguments. -/
def read (o : Options) : List String → Except ArgumentError Options
  | [] => .ok o
  | flag :: rest =>
    match switch? flag, setting? flag, rest with
    | some f, _, rest => read (f o) rest
    | none, none, _ => .error (refuse flag)
    | none, some _, [] => .error (.missingValue flag)
    | none, some set, value :: rest =>
      match set value with
      | .ok f => read (f o) rest
      | .error e => .error e

def ofArguments (args : List String) : Except ArgumentError Options := unset.read args

end Options

end FxStack.CommandLine

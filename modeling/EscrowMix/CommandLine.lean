import EscrowMix.Config
import EscrowMix.Text.Digits

/-!
The parameters of a node as words of a command line. Every parameter has a flag with a value, either
the next word or the text after `=`. The words are first scanned in order, where an unknown word or
a request for help ends the reading at once; only then are the values judged, flag by flag in the
order of first use.
-/

namespace EscrowMix.CommandLine

/-- Why words give no parameters. -/
inductive Error where
  /-- A word that is neither a flag nor the value of one. -/
  | unknownArgument
  /-- A value that is no number of the flag's range. -/
  | valueValidation
  /-- A flag without a value. -/
  | emptyValue
  /-- A flag that is used more than once. -/
  | multipleUsage
  /-- A value for the request for help, which takes none. -/
  | tooManyValues
  /-- Help was asked for. -/
  | help
deriving DecidableEq

/-- The name of a cause. -/
def Error.name : Error → String
  | unknownArgument => "UnknownArgument"
  | valueValidation => "ValueValidation"
  | emptyValue => "EmptyValue"
  | multipleUsage => "UnexpectedMultipleUsage"
  | tooManyValues => "TooManyValues"
  | help => "DisplayHelp"

/-- The flags. -/
inductive Flag where
  | minConfirmations | feePerParty | mixerBps | guarantorBps | maxIdleSecs
deriving DecidableEq

namespace Flag

/-- All flags. -/
def all : List Flag := [minConfirmations, feePerParty, mixerBps, guarantorBps, maxIdleSecs]

/-- The word of a flag. -/
def word : Flag → String
  | minConfirmations => "--min-confirmations"
  | feePerParty => "--fee-per-party"
  | mixerBps => "--mixer-fee-bps"
  | guarantorBps => "--guarantor-fee-bps"
  | maxIdleSecs => "--max-idle-secs"

/-- The number of bits of a flag's value. -/
def bits : Flag → Nat
  | minConfirmations => 32
  | feePerParty => 64
  | mixerBps => 16
  | guarantorBps => 16
  | maxIdleSecs => 64

/-- The flag of a word. -/
def ofWord? (text : String) : Option Flag := all.find? (·.word = text)

end Flag

/-- A number of so many bits: decimal digits, after a plus sign or not. -/
def unsigned? (bits : Nat) (text : String) : Option Nat := do
  let cs := text.toList
  let n ← Text.ofDigits? (if cs.head? = some '+' then cs.drop 1 else cs)
  if n < 1 <<< bits then some n else none

/-- A word that cannot be a value: it begins with a hyphen and has more than that. -/
def isFlagLike (text : String) : Bool := text.toList.head? == some '-' && text != "-"

/-- The word before the first `=`, and the text after it. -/
def splitWord (text : String) : String × Option String :=
  let cs := text.toList
  let rest := cs.dropWhile (· ≠ '=')
  (String.ofList (cs.takeWhile (· ≠ '=')),
    if rest.isEmpty then none else some (String.ofList (rest.drop 1)))

/-- One use of a flag. -/
structure Use where
  flag : Flag
  value : Option String
deriving DecidableEq

/-- Reads the uses of flags. After the word `--` no word is a flag, so none may follow it. -/
def scan : List String → Except Error (List Use)
  | [] => .ok []
  | w :: ws =>
    if w = "--" then
      if ws.isEmpty then .ok [] else .error .unknownArgument
    else if w.toList.take 2 = ['-', '-'] then
      let (name, attached) := splitWord w
      if name = "--help" then .error (if attached.isSome then .tooManyValues else .help)
      else
        match Flag.ofWord? name, attached with
        | none, _ => .error .unknownArgument
        | some flag, some value => do return ⟨flag, some value⟩ :: (← scan ws)
        | some flag, none =>
          match ws with
          | [] => .ok [⟨flag, none⟩]
          | v :: rest =>
            if isFlagLike v then do return ⟨flag, none⟩ :: (← scan (v :: rest))
            else do return ⟨flag, some v⟩ :: (← scan rest)
    else if w.toList.take 2 = ['-', 'h'] then .error .help
    else .error .unknownArgument

/-- The values given to a flag, in order. -/
def valuesOf (uses : List Use) (flag : Flag) : List String :=
  (uses.filter (·.flag = flag)).filterMap (·.value)

/-- Judges the uses of one flag. -/
def checkFlag (uses : List Use) (flag : Flag) : Except Error Unit :=
  let values := valuesOf uses flag
  if values.isEmpty then .error .emptyValue
  else if values.any fun v => (unsigned? flag.bits v).isNone then .error .valueValidation
  else if (uses.filter (·.flag = flag)).length > 1 then .error .multipleUsage
  else .ok ()

/-- Judges all uses: first a flag that ends the words without a value, then flag by flag. -/
def check (uses : List Use) : Except Error Unit := do
  match uses.getLast? with
  | some ⟨flag, none⟩ => if (valuesOf uses flag).isEmpty then .error .emptyValue
  | _ => .ok ()
  uses.forM fun u => checkFlag uses u.flag

/-- The value of a flag, if it was used. -/
def number? (uses : List Use) (flag : Flag) : Option Nat := do
  unsigned? flag.bits (← (valuesOf uses flag).head?)

/-- The parameters of the words after the name of the program. -/
def parse (args : List String) : Except Error Config := do
  let uses ← scan args
  check uses
  let standard := Config.standard
  return {
    minConfirmations :=
      ((number? uses .minConfirmations).map UInt32.ofNat).getD standard.minConfirmations
    feePerParty :=
      ((number? uses .feePerParty).map fun n => ⟨UInt64.ofNat n⟩).getD standard.feePerParty
    mixerBps := ((number? uses .mixerBps).map UInt16.ofNat).getD standard.mixerBps
    guarantorBps := ((number? uses .guarantorBps).map UInt16.ofNat).getD standard.guarantorBps
    maxIdleSecs := ((number? uses .maxIdleSecs).map UInt64.ofNat).getD standard.maxIdleSecs }

end EscrowMix.CommandLine

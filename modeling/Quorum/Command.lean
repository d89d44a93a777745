import Quorum.Signing.Algorithm

/-! The command line: its commands with their options, and what can be wrong with its words. -/

namespace Quorum

inductive Command where
  /-- Makes a key file. -/
  | keygen (out : String) (algorithm : String) (force : Bool)
  /-- Runs a node. -/
  | run (config : String) (demoBlocks : Bool)
  deriving DecidableEq

/-- Why words are no command. Asking for help or for the version counts as such. -/
inductive UsageFault where
  | noCommand
  | unknownCommand
  | unknownArgument
  | missingArgument
  | invalidValue
  /-- An option was given twice. -/
  | conflict
  /-- A flag was given a value. -/
  | tooManyValues
  | help
  | version
  deriving DecidableEq

namespace Command

/-- What an option takes. -/
inductive Operand where
  | nothing
  | text
  /-- A text that is not empty. -/
  | path
  deriving DecidableEq

structure Choice where
  name : String
  operand : Operand

/-- A word of the command line by its form. -/
inductive Form where
  /-- Two hyphens: only plain words follow. -/
  | separator
  /-- A name after two hyphens, and what follows an equals sign. -/
  | long (name : String) (value : Option String)
  /-- Letters after a hyphen, of which the first is given. -/
  | short (letter : Char)
  | plain

def formOf (word : String) : Form :=
  match word.toList with
  | ['-', '-'] => .separator
  | '-' :: '-' :: rest =>
      match rest.span (· ≠ '=') with
      | (name, []) => .long (String.ofList name) none
      | (name, _ :: value) => .long (String.ofList name) (some (String.ofList value))
  | '-' :: letter :: _ => .short letter
  | _ => .plain

/-- The options that were given, with their operands. -/
abbrev Given := List (String × String)

/-- An option whose operand is yet to come, or has come as a word of its own. It is accepted only
once the words after it are known to be sound.
-/
structure Pending where
  choice : Choice
  value : Option String

/-- Accepts an option, unless it was given before. -/
def accept (given : Given) (choice : Choice) (value : Option String)
    : Except UsageFault Given :=
  if choice.operand ≠ .nothing ∧ value = none then .error .invalidValue
  else if ∃ entry ∈ given, entry.1 = choice.name then .error .conflict
  else if choice.operand = .path ∧ value = some "" then .error .invalidValue
  else .ok (given ++ [(choice.name, value.getD "")])

def settle (given : Given) : Option Pending → Except UsageFault Given
  | none => .ok given
  | some pending => accept given pending.choice pending.value

/-- Reads the words after a command with the given options. -/
def readOptions (choices : List Choice) (given : Given) (pending : Option Pending)
    : List String → Except UsageFault Given
  | [] => settle given pending
  | word :: rest =>
      match formOf word with
      | .separator => if rest = [] then settle given pending else .error .unknownArgument
      | .short letter => do
          if letter ≠ 'h' then
            throw .unknownArgument
          let _ ← settle given pending
          throw .help
      | .plain =>
          match pending with
          | some ⟨choice, none⟩ => readOptions choices given (some ⟨choice, some word⟩) rest
          | _ => .error .unknownArgument
      | .long "help" none => do
          let _ ← settle given pending
          throw .help
      | .long "help" (some _) => .error .tooManyValues
      | .long name value =>
          match choices.find? (·.name = name) with
          | none => .error .unknownArgument
          | some choice =>
              match choice.operand, value with
              | .nothing, some _ => .error .tooManyValues
              | .nothing, none | _, some _ => do
                  let given ← accept (← settle given pending) choice value
                  readOptions choices given none rest
              | _, none => do
                  let given ← settle given pending
                  readOptions choices given (some ⟨choice, none⟩) rest

def readKeygen (words : List String) : Except UsageFault Command := do
  let given ← readOptions [⟨"out", .path⟩, ⟨"algorithm", .text⟩, ⟨"force", .nothing⟩] [] none words
  match given.lookup "out" with
  | none => throw .missingArgument
  | some out =>
      let algorithm := (given.lookup "algorithm").getD Algorithm.ed25519Sha256.name
      return .keygen out algorithm (given.lookup "force").isSome

def readRun (words : List String) : Except UsageFault Command := do
  let given ← readOptions [⟨"config", .path⟩, ⟨"demo-blocks", .nothing⟩] [] none words
  return .run ((given.lookup "config").getD "yac.toml") (given.lookup "demo-blocks").isSome

def names : List String :=
  ["keygen", "run", "help"]

/-- Reads the words after the name of the program. -/
def ofWords : List String → Except UsageFault Command
  | [] => .error .noCommand
  | "keygen" :: words => readKeygen words
  | "run" :: words => readRun words
  | "help" :: words =>
      match words with
      | [] => .error .help
      | [name] => .error (if name ∈ names then .help else .unknownCommand)
      | _ => .error .unknownCommand
  | word :: rest =>
      match formOf word, rest with
      | .separator, [] => .error .noCommand
      | .separator, next :: _ =>
          .error (if next ∈ names then .unknownArgument else .unknownCommand)
      | .long "help" value, _ => .error (if value = none then .help else .tooManyValues)
      | .long "version" value, _ => .error (if value = none then .version else .tooManyValues)
      | .short 'h', _ => .error .help
      | .short 'V', _ => .error .version
      | .plain, _ => .error .unknownCommand
      | _, _ => .error .unknownArgument

end Command

end Quorum

import LiveSurface.Text.Blank

/-!
# Command lines

How arguments are taken apart into options, their values and paths. An option is written in full
after two dashes, or as one letter after one dash; letters may stand together, and a value may
stand directly behind its letter or behind an equals sign. After two dashes alone everything is a
path. Of an option given more than once the last value counts, at the first place.
-/
namespace LiveSurface.Command

/-- The options. -/
inductive Opt
  | config
  | format
  | width
  | summary
  | logConfig
  | verbose
  | help
deriving DecidableEq, Repr

namespace Opt

/-- All options. -/
def all : List Opt := [config, format, width, summary, logConfig, verbose, help]

/-- The name of an option. -/
def name : Opt → String
  | config => "--config"
  | format => "--format"
  | width => "--width"
  | summary => "--summary"
  | logConfig => "--log-config"
  | verbose => "--verbose"
  | help => "--help"

/-- The letter of an option. -/
def letter? : Opt → Option Char
  | config => some 'c'
  | verbose => some 'v'
  | _ => none

/-- Whether an option has a value. -/
def takesValue : Opt → Bool
  | config | format | width | logConfig => true
  | summary | verbose | help => false

/-- An option as faults show it. -/
def label (option : Opt) : String :=
  match option.letter? with
  | some letter => s!"'{option.name}' / '-{letter}'"
  | none => s!"'{option.name}'"

/-- The option with a name. -/
def ofName? (s : String) : Option Opt := all.find? fun option => option.name = s

/-- The option with a letter. -/
def ofLetter? (c : Char) : Option Opt := all.find? fun option => option.letter? = some c

end Opt

/-- Why arguments cannot be taken apart. -/
inductive LineFault
  | unknown (option : String)
  | valueMissing (option : String)
  | valueRefused (option : String)
deriving DecidableEq, Repr

/-- The wording of a fault. -/
def LineFault.message : LineFault → String
  | unknown option => s!"No such option: {option}"
  | valueMissing option => s!"Option '{option}' requires an argument."
  | valueRefused option => s!"Option '{option}' does not take a value."

/-- Arguments taken apart. Options without values have the empty one. -/
structure Line where
  options : List (Opt × String) := []
  paths : List String := []
deriving DecidableEq, Repr

namespace Line

/-- Puts an option before a line. -/
def withOption (option : Opt) (value : String) (line : Line) : Line :=
  { line with options := (option, value) :: line.options }

/-- Puts a path before a line. -/
def withPath (path : String) (line : Line) : Line := { line with paths := path :: line.paths }

/-- The letters of one argument: the options without values, and the last one where it has a
value, with its name and what stands behind it. -/
def letters : List Char → Except LineFault (List Opt × Option (Opt × String × String))
  | [] => .ok ([], none)
  | c :: rest =>
    match Opt.ofLetter? c with
    | none => .error (.unknown (String.ofList ['-', c]))
    | some option =>
      if option.takesValue then
        .ok ([], some (option, String.ofList ['-', c], String.ofList rest))
      else (letters rest).map fun (options, last) => (option :: options, last)

/-- What an argument is. -/
inductive Part
  | path
  | rest
  | options (flags : List Opt)
  /-- Options without values, and one whose value stands in the argument. -/
  | complete (flags : List Opt) (option : Opt) (value : String)
  /-- Options without values, and one whose value is the next argument. -/
  | pending (flags : List Opt) (option : Opt) (written : String)

/-- Takes one argument apart. -/
def part (arg : String) : Except LineFault Part :=
  match arg.toList with
  | ['-', '-'] => .ok .rest
  | '-' :: c :: more =>
    let written := String.ofList (arg.toList.takeWhile (· ≠ '='))
    let value? := match arg.toList.dropWhile (· ≠ '=') with
      | _ :: value => some (String.ofList value)
      | [] => none
    match Opt.ofName? written, value? with
    | some option, some value =>
      if option.takesValue then .ok (.complete [] option value)
      else .error (.valueRefused written)
    | some option, none =>
      .ok (if option.takesValue then .pending [] option written else .options [option])
    | none, _ =>
      if c = '-' then .error (.unknown written)
      else (letters (c :: more)).map fun
        | (flags, none) => .options flags
        | (flags, some (option, written, value)) =>
          if value = "" then .pending flags option written else .complete flags option value
  | _ => .ok .path

/-- Takes arguments apart. -/
def read : List String → Except LineFault Line
  | [] => .ok {}
  | arg :: rest =>
    let flagged (flags : List Opt) (line : Line) : Line :=
      flags.foldr (fun flag line => line.withOption flag "") line
    match part arg with
    | .error fault => .error fault
    | .ok .path => (read rest).map (withPath arg)
    | .ok .rest => .ok { paths := rest }
    | .ok (.options flags) => (read rest).map (flagged flags)
    | .ok (.complete flags option value) =>
      (read rest).map fun line => flagged flags (line.withOption option value)
    | .ok (.pending flags option written) =>
      match rest with
      | [] => .error (.valueMissing written)
      | value :: rest => (read rest).map fun line => flagged flags (line.withOption option value)

/-- The options in the order of their first places. -/
def given (line : Line) : List Opt := (line.options.map Prod.fst).eraseDups

/-- The last value of an option. -/
def value? (line : Line) (option : Opt) : Option String := line.options.reverse.lookup option

/-- Whether an option is given. -/
def has (line : Line) (option : Opt) : Bool := (line.value? option).isSome

end Line
end LiveSurface.Command

import Smpp.CommandLine.Arguments

/-!
# The help text

The help text is laid out from the options themselves: one paragraph for each, with the names of the
option in a column of twenty characters and its description in the rest of eighty, broken between
words. Names that fill their column have a line to themselves.
-/

namespace Smpp.Help

/-- The name of the program. -/
def program : String := "smpp-gateway"

/-- The width of the column of names. -/
def indent : Nat := 20

/-- The width of the text. -/
def width : Nat := 80

/-- A line with blanks up to the column of descriptions. -/
def pad (line : String) : String :=
  line ++ String.ofList (List.replicate (indent - line.length) ' ')

/-- Sets words after a line that has begun, and begins a new line where a word does not fit. -/
def fill (line : String) : List String → List String
  | [] => [line]
  | word :: words =>
    if line.length + 1 + word.length ≤ width then fill (line ++ " " ++ word) words
    else line :: fill (pad "" ++ word) words

/-- Sets an entry: names on the left, a description on the right. -/
def entry (names description : String) : List String :=
  let line := "  " ++ names
  match description.splitOn " " with
  | [] => [line]
  | word :: words =>
    if line.length < indent then fill (pad line ++ word) words
    else line :: fill (pad "" ++ word) words

/-- The names of an option. -/
def names (f : Flag) : String :=
  match f.short? with
  | some short => short ++ ", " ++ f.long
  | none => f.long

/-- How an option is used. -/
def usage (f : Flag) : String :=
  " [" ++ f.short?.getD f.long ++ " <" ++ f.name ++ (if f.isRepeatable then "..." else "") ++ ">]"

/-- The options that are explained. -/
def explained : List Flag := Flag.all.filter (·.description?.isSome)

/-- The help text. -/
def lines : List String :=
  ["Usage: " ++ program ++ String.join (explained.map usage), "", "Multi-process SMPP v3.4 gateway",
    "", "Options:"] ++
    explained.flatMap (fun f => entry (names f) (f.description?.getD "")) ++
    entry "--help, help" "display usage information" ++ [""]

end Smpp.Help

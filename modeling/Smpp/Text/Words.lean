/-!
# Lines and words

A text is a row of lines, and each line ends with a line feed, which may have one carriage return in
front of it; neither belongs to the line. `lines` splits a text whose last line feed is still to
come, `readLines` one that is read to its end, and `readLines_append_feed` says that they agree. A
line is read as its words: the longest runs of characters that are no white space. White space is
the Unicode property `White_Space`, which goes well beyond the blanks of ASCII.
-/

namespace Smpp.Text

/-- The characters of the Unicode property `White_Space`. -/
def isWhiteSpace (c : Char) : Bool :=
  let n := c.toNat
  (0x09 ≤ n && n ≤ 0x0D) || n == 0x20 || n == 0x85 || n == 0xA0 || n == 0x1680 ||
    (0x2000 ≤ n && n ≤ 0x200A) || n == 0x2028 || n == 0x2029 || n == 0x202F || n == 0x205F ||
    n == 0x3000

/-- The words of a line after the characters `word`, read last first, of an unfinished word. -/
def wordsAfter (word : List Char) : List Char → List (List Char)
  | [] => if word.isEmpty then [] else [word.reverse]
  | c :: cs =>
    if isWhiteSpace c then
      if word.isEmpty then wordsAfter [] cs else word.reverse :: wordsAfter [] cs
    else wordsAfter (c :: word) cs

/-- The words of a line, from left to right. -/
def words (line : String) : List String := (wordsAfter [] line.toList).map String.ofList

/-- A line, read last first, without a carriage return at its end. -/
def dropReturn : List Char → List Char
  | '\r' :: cs => cs
  | cs => cs

/-- The lines of a text after the characters `line`, read last first, of an unfinished line. The end
of the text ends a line too. -/
def linesAfter (line : List Char) : List Char → List (List Char)
  | [] => [(dropReturn line).reverse]
  | '\n' :: cs => (dropReturn line).reverse :: linesAfter [] cs
  | c :: cs => linesAfter (c :: line) cs

/-- The lines of a text to which a line feed is still to be added. -/
def lines (text : String) : List String := (linesAfter [] text.toList).map String.ofList

/-- The lines of a text that is read to its end, after the characters `line`, read last first, of an
unfinished line. What stands behind the last line feed is a line as it is, unless it is empty. -/
def linesToEnd (line : List Char) : List Char → List (List Char)
  | [] => if line.isEmpty then [] else [line.reverse]
  | '\n' :: cs => (dropReturn line).reverse :: linesToEnd [] cs
  | c :: cs => linesToEnd (c :: line) cs

/-- The lines that a reader takes off a text until it ends. -/
def readLines (text : String) : List String := (linesToEnd [] text.toList).map String.ofList

/-- Lines as one text: each ends with a line feed. -/
def ofLines : List String → String
  | [] => ""
  | line :: lines => line ++ "\n" ++ ofLines lines

/-- A text without the white space at its ends. -/
def trim (s : String) : String :=
  String.ofList ((s.toList.dropWhile isWhiteSpace).reverse.dropWhile isWhiteSpace).reverse

theorem linesToEnd_append_feed (line cs : List Char) :
    linesToEnd line (cs ++ ['\n']) = linesAfter line cs := by
  fun_induction linesAfter line cs with
  | case1 line => rfl
  | case2 line cs ih =>
    rw [List.cons_append, linesToEnd, ih]
  | case3 line c cs hfeed ih =>
    rw [List.cons_append, linesToEnd, ih]
    exact hfeed

/-- **Both readings of lines agree**: to read a text whose last line is ended is to split what is in
front of the last line feed. -/
theorem readLines_append_feed (text : String) : readLines (text ++ "\n") = lines text := by
  unfold readLines lines
  rw [String.toList_append]
  exact congrArg _ (linesToEnd_append_feed [] text.toList)

end Smpp.Text

/-
This file tells whether a public item has a doc comment, looking upwards over blank
lines and attributes. An attribute of several lines is recognised from its last line
by the balance of its brackets and parentheses.
-/

import CrateAudit.Rule
import CrateAudit.Rust.Lexing

namespace CrateAudit.Scan

open Regex (inOrder exactly parts many atLeastOne blank noneOf perhaps firstOf)

/-- The start of a line that declares a public item. The fourth group is the kind of item. -/
def publicItem : Regex :=
  let qualifier := firstOf
    [inOrder (parts "async"), inOrder (parts "const"), inOrder (parts "unsafe"),
      inOrder (parts "extern" ++
        [atLeastOne blank, exactly '"', many (noneOf ['"']), exactly '"'])]
  let item := firstOf
    (["fn", "struct", "enum", "trait", "type", "const", "static", "union"].map
      fun word => inOrder (parts word))
  inOrder <|
    [.anchor .start, many blank] ++ parts "pub" ++
    [perhaps (.group 1 (inOrder ([exactly '('] ++ [many (noneOf [')'])] ++ [exactly ')']))),
      atLeastOne blank,
      many (.group 2 (inOrder [.group 3 qualifier, atLeastOne blank])),
      .group 4 item, blank]

/-- How many more brackets and parentheses some code closes than it opens. -/
def closingBalance (code : Line) : Int :=
  (code.count ']' + code.count ')' : Int) - code.count '[' - code.count '('

/-- Whether a doc comment is found in lines, the nearest first. `depth` brackets are open, seen
from below. -/
def docsAbove (depth : Int) : List Line → Bool
  | [] => false
  | line :: rest =>
    let trimmed := Text.trim line
    let code := Rust.codeOnly trimmed
    let balance := closingBalance code
    if "#[doc".toList.isPrefixOf trimmed then true
    else if 0 < depth then docsAbove (max (depth + balance) 0) rest
    else if trimmed.isEmpty || "#[".toList.isPrefixOf trimmed then docsAbove depth rest
    else if 0 < balance && (Text.trimEnd code).getLast? = some ']' then docsAbove balance rest
    else "///".toList.isPrefixOf trimmed || "*/".toList.isSuffixOf trimmed

/-- Whether the item at a line has a doc comment. -/
def hasDocs (lines : List Line) (index : Nat) : Bool :=
  docsAbove 0 (lines.take index).reverse

end CrateAudit.Scan

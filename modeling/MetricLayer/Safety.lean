import MetricLayer.Catalog.Basic
import MetricLayer.Sql.Clause
import MetricLayer.Sql.Identifier

/-!
# The safety gate

`violations` lists what keeps a statement from being executed: it has to be one SELECT (or WITH)
statement, without words that change data and without comments, and to read no table but the one of
its catalog and the tables it defines itself.
-/

namespace MetricLayer.Safety

open MetricLayer.Text MetricLayer.Sql

/-- A reason not to execute a statement. -/
inductive Violation where
  | notSelect
  | severalStatements
  | dangerousKeyword (word : String)
  | inlineComment
  | blockComment
  | otherTable (name table : String)
deriving Repr, DecidableEq

/-- The wording of a violation. -/
def Violation.message : Violation → String
  | .notSelect => "SQL must be a SELECT statement."
  | .severalStatements =>
    "Multi-statement SQL is not allowed (found ';' followed by another statement)."
  | .dangerousKeyword w => "Dangerous keyword detected: '" ++ w ++ "'."
  | .inlineComment => "Inline comments (--) are not allowed."
  | .blockComment => "Block comments (/* */) are not allowed."
  | .otherTable n t => "Table '" ++ n ++ "' is not the queried table '" ++ t ++ "'."

/-- The words that change data or reach outside the table. -/
def dangerousWords : List String :=
  ["drop", "alter", "truncate", "insert", "update", "delete", "merge", "grant", "revoke", "create",
   "execute", "exec", "call", "copy", "attach", "detach", "install", "load", "pragma", "export",
   "import"]

/-- The functions whose arguments hold the word FROM. -/
def fromFunctions : List String :=
  ["EXTRACT", "SUBSTRING", "TRIM", "OVERLAY", "POSITION"]

/-- A text in quotes at a place: what stands between the quotes, and what follows. -/
def quotedAt? (q : Char) (p : Place) : Option (List Char × List Char) :=
  match p.rest with
  | c :: cs => if c = q then quotedBody? q cs else none
  | [] => none

/-- Replaces the texts in quotes of a kind, from left to right. -/
def replaceFrom (q : Char) (f : List Char → List Char) : Nat → List Place → List Char
  | _, [] => []
  | next, p :: ps =>
    if p.offset < next then replaceFrom q f next ps
    else match quotedAt? q p, p.rest with
      | some (body, _), _ => (q :: f body ++ [q]) ++ replaceFrom q f (p.offset + body.length + 2) ps
      | none, c :: _ => c :: replaceFrom q f next ps
      | none, [] => []

/-- Replaces the texts in quotes of a kind. -/
def replaceQuoted (q : Char) (f : List Char → List Char) (cs : List Char) : List Char :=
  replaceFrom q f 0 (places cs)

/-- The statement with its text literals emptied. -/
def withoutLiterals (sql : List Char) : List Char :=
  replaceQuoted '\'' (fun _ => []) (statement sql)

/-- The statement with its quoted names blanked; offsets stay. -/
def withoutNames (cs : List Char) : List Char :=
  replaceQuoted '"' (fun body => List.replicate body.length '_') cs

/-- The statement starts with SELECT or WITH. -/
def startsSelect (cs : List Char) : Bool :=
  let start : Place := ⟨0, none, cs⟩
  (start.keyword? "select").isSome || (start.keyword? "with").isSome

/-- Something other than white space follows a semicolon. -/
def hasSecondStatement (cs : List Char) : Bool :=
  (cs.dropWhile (· != ';')).tail.any fun c => !isBlank c

/-- The first dangerous word, as it is written. -/
def dangerousWord? (cs : List Char) : Option (List Char) :=
  (places cs).findSome? fun p =>
    (dangerousWords.find? fun w => (p.keyword? w).isSome).map fun w => p.rest.take w.length

/-- Reads a part of a table reference: a word, or a text in double quotes that holds none. -/
def readPart? (cs : List Char) : Option (List Char × List Char) :=
  match cs with
  | '"' :: rest =>
    match rest.dropWhile (· != '"') with
    | '"' :: after =>
      let body := rest.takeWhile (· != '"')
      if body.isEmpty then none else some ('"' :: body ++ ['"'], after)
    | _ => none
  | _ =>
    let word := cs.takeWhile isWord
    if word.isEmpty then none else some (word, cs.dropWhile isWord)

/-- The text after a table reference; at most as many parts as given are read. -/
def afterReference? : Nat → List Char → Option (List Char)
  | 0, _ => none
  | n + 1, cs => do
    let (_, rest) ← readPart? cs
    match (afterPoint? rest).bind (afterReference? n) with
    | some rest => some rest
    | none => some rest

/-- A FROM or JOIN with the table reference after it: the offset and the length of the reference. -/
def tableReference? (p : Place) : Option ((Nat × Nat) × List Char) := do
  if !p.startsWord then none
  let rest ← (letters? "from".toList p.rest).or (letters? "join".toList p.rest)
  let reference ← match rest with
    | b :: cs => if isBlank b then some (cs.dropWhile isBlank) else none
    | [] => none
  let after ← afterReference? (reference.length + 1) reference
  some ((p.offset + (p.rest.length - reference.length), reference.length - after.length), after)

/-- The name a table reference gives, without quotes and white space around its parts. -/
def referenceName (cs : List Char) : String :=
  joinWith "." ((splitOn '.' cs).map fun part =>
    String.ofList (dropBothWhile (· == '"') (trim part)))

/-- The name of the function whose parentheses hold a position: `before` is the text before it,
reversed, and `depth` counts the closed parentheses passed. -/
def enclosingFrom : Nat → List Char → Option (List Char)
  | _, [] => none
  | depth, c :: before =>
    if c = ')' then enclosingFrom (depth + 1) before
    else if c = '(' then
      if depth = 0 then
        let name := ((before.dropWhile isBlank).takeWhile isWord).reverse
        if name.isEmpty then none else some (upper name)
      else enclosingFrom (depth - 1) before
    else enclosingFrom depth before

/-- The name, in upper case, of the function whose parentheses hold an offset. -/
def enclosingFunction? (cs : List Char) (offset : Nat) : Option String :=
  (enclosingFrom 0 (cs.take offset).reverse).map String.ofList

/-- A name that a WITH clause binds: after WITH or a comma, before AS and a parenthesis. -/
def boundName? (p : Place) : Option (List Char × List Char) := do
  let rest ←
    (if p.startsWord then letters? "with".toList p.rest else none).or ([','].isPrefixOf? p.rest)
  let (name, rest) ← readPart? (rest.dropWhile isBlank)
  let rest ← match rest with
    | b :: cs => if isBlank b then some (cs.dropWhile isBlank) else none
    | [] => none
  match (← letters? ['a', 's'] rest).dropWhile isBlank with
  | '(' :: rest => some (name, rest)
  | _ => none

/-- The names the statement binds, in lower case. -/
def boundNames (cs : List Char) : List (List Char) :=
  (scan boundName? cs).map fun (_, name) => lower (referenceName name).toList

/-- The names of the catalog's table, in lower case: the full one and its last part. -/
def ownNames (c : Catalog) : List (List Char) :=
  [lower c.table.toList, lower ((splitOn '.' c.table.toList).getLast?.getD [])]

/-- The tables the statement reads and may not read. -/
def otherTables (c : Catalog) (literalFree nameFree : List Char) : List Violation :=
  let allowed := boundNames literalFree ++ ownNames c
  (scan tableReference? nameFree).filterMap fun (p, (start, length)) =>
    if (enclosingFunction? nameFree p.offset).any fromFunctions.contains then none
    else
      let name := referenceName ((literalFree.drop start).take length)
      if allowed.contains (lower name.toList) then none else some (.otherTable name c.table)

/-- What keeps a statement from being executed. -/
def violations (c : Catalog) (sql : String) : List Violation :=
  let literalFree := withoutLiterals sql.toList
  let nameFree := withoutNames literalFree
  (if startsSelect literalFree then [] else [.notSelect]) ++
    (if hasSecondStatement nameFree then [.severalStatements] else []) ++
    (dangerousWord? nameFree).toList.map (fun w => .dangerousKeyword (String.ofList (upper w))) ++
    (if occurs ['-', '-'] nameFree then [.inlineComment] else []) ++
    (if occurs ['/', '*'] nameFree then [.blockComment] else []) ++
    otherTables c literalFree nameFree

end MetricLayer.Safety

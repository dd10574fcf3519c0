import AlarmClock.Toml.Number

set_option autoImplicit false

namespace AlarmClock.Toml

def depthLimit : Nat := 80

def dropSpaces (cs : List Char) : List Char := cs.dropWhile isSpace

def skipLines (inComment : Bool) : List Char → Option (List Char)
  | [] => some []
  | '\n' :: rest => skipLines false rest
  | '\r' :: '\n' :: rest => skipLines false rest
  | c :: rest =>
      if inComment then if isPlain c then skipLines true rest else none
      else if isSpace c then skipLines false rest
      else if c = '#' then skipLines true rest
      else some (c :: rest)

def endLine (inComment : Bool) : List Char → Option (List Char)
  | [] => some []
  | '\n' :: rest => some rest
  | '\r' :: '\n' :: rest => some rest
  | c :: rest =>
      if inComment then if isPlain c then endLine true rest else none
      else if isSpace c then endLine false rest
      else if c = '#' then endLine true rest
      else none

def isBare (c : Char) : Bool := c.isAlphanum || c == '_' || c == '-'

def simpleKey : Reader String
  | '"' :: rest => (basicString rest).map fun (key, rest) => (String.ofList key, rest)
  | '\'' :: rest => (literalString rest).map fun (key, rest) => (String.ofList key, rest)
  | cs =>
      match cs.takeWhile isBare with
      | [] => none
      | key => some (String.ofList key, cs.dropWhile isBare)

def key (parts : Nat) (cs : List Char) : Option ((List String × String) × List Char) :=
  match parts with
  | 0 => none
  | parts + 1 => do
      let (part, rest) ← simpleKey (dropSpaces cs)
      match dropSpaces rest with
      | '.' :: rest => do
          let ((path, last), rest) ← key parts rest
          some ((part :: path, last), rest)
      | rest => some (([], part), rest)

def entry (value : Reader Value) (cs : List Char) : Option ((List String × String × Value) × List Char) := do
  let ((path, last), rest) ← key (depthLimit - 1) cs
  match rest with
  | '=' :: rest => do
      let (v, rest) ← value (dropSpaces rest)
      some ((path, last, v), rest)
  | _ => none

def arrayItems (value : Reader Value) (count : Nat) (cs : List Char) : Option (List Value × List Char) :=
  match count with
  | 0 => none
  | count + 1 => do
      match ← skipLines false cs with
      | ']' :: rest => some ([], rest)
      | cs => do
          let (item, rest) ← value cs
          match ← skipLines false rest with
          | ',' :: rest => do
              let (items, rest) ← arrayItems value count rest
              some (item :: items, rest)
          | ']' :: rest => some ([item], rest)
          | _ => none

def inlineEntries (value : Reader Value) (count : Nat) (table : TableForm × Entries) (cs : List Char) :
    Option (Entries × List Char) :=
  match count with
  | 0 => none
  | count + 1 => do
      let ((path, last, v), rest) ← entry value cs
      let table ← addDotted path last v table
      match dropSpaces rest with
      | ',' :: rest => inlineEntries value count table rest
      | '}' :: rest => some (table.2, rest)
      | _ => none

def scalar : Reader Value
  | 't' :: 'r' :: 'u' :: 'e' :: rest => some (.boolean true, rest)
  | 'f' :: 'a' :: 'l' :: 's' :: 'e' :: rest => some (.boolean false, rest)
  | '"' :: rest => (string? ('"' :: rest)).map fun (text, rest) => (.string (String.ofList text), rest)
  | '\'' :: rest => (string? ('\'' :: rest)).map fun (text, rest) => (.string (String.ofList text), rest)
  | cs => numberOrDate cs

def value (depth : Nat) (cs : List Char) : Option (Value × List Char) :=
  match depth, cs with
  | depth + 1, '[' :: rest =>
      (arrayItems (value depth) rest.length rest).map fun (items, rest) => (.array items, rest)
  | depth + 1, '{' :: rest =>
      match dropSpaces rest with
      | '}' :: rest => some (.table .inline [], rest)
      | rest =>
          (inlineEntries (value depth) rest.length (.inline, []) rest).map fun (entries, rest) =>
            (.table .inline entries, rest)
  | _, cs => scalar cs

abbrev Header := List String

def header (closing : List Char) (cs : List Char) : Option ((List String × String) × List Char) := do
  let (name, rest) ← key (depthLimit - 1) cs
  if closing.isPrefixOf rest then some (name, ← endLine false (rest.drop closing.length)) else none

def statements (count : Nat) (under : Header) (root : TableForm × Entries) (cs : List Char) :
    Option Entries :=
  match count with
  | 0 => none
  | count + 1 => do
      match ← skipLines false cs with
      | [] => some root.2
      | '[' :: '[' :: rest => do
          let ((path, last), rest) ← header [']', ']'] rest
          let root ← within .implied (openNext last) path root
          statements count (path ++ [last]) root rest
      | '[' :: rest => do
          let ((path, last), rest) ← header [']'] rest
          let root ← within .implied (openTable last) path root
          statements count (path ++ [last]) root rest
      | cs => do
          let ((path, last, v), rest) ← entry (value (depthLimit - 1)) cs
          let root ← within .implied (addDotted path last v) under root
          statements count under root (← endLine false rest)

def dropMark : List Char → List Char
  | '\uFEFF' :: rest => rest
  | cs => cs

def parse (document : String) : Option Entries :=
  let cs := dropMark document.toList
  statements (cs.length + 1) [] (.headed, []) cs

end AlarmClock.Toml

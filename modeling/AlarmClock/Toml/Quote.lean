set_option autoImplicit false

namespace AlarmClock.Toml

def isControl (c : Char) : Bool :=
  (c.toNat ≤ 0x1f && c != '\t' && c != '\n') || c.toNat == 0x7f

def hasRun (c : Char) (count : Nat) : List Char → Bool
  | [] => count == 0
  | x :: rest => (List.replicate count c).isPrefixOf (x :: rest) || hasRun c count rest

def hexDigit (n : Nat) : Char := if n < 10 then Char.ofNat (48 + n) else Char.ofNat (55 + n)

def escape (c : Char) : List Char :=
  match c with
  | '\x08' => ['\\', 'b']
  | '\t' => ['\\', 't']
  | '\x0c' => ['\\', 'f']
  | '\r' => ['\\', 'r']
  | '\\' => ['\\', '\\']
  | c => if isControl c then ['\\', 'u', '0', '0', hexDigit (c.toNat / 16), hexDigit (c.toNat % 16)] else [c]

def escapeLine : List Char → List Char
  | [] => []
  | c :: rest =>
      (if c = '"' then ['\\', '"'] else if c = '\n' then ['\\', 'n'] else escape c) ++ escapeLine rest

/-- The inside of a basic string of several lines. Of double quotes in a row every third is escaped; `run`
counts those since the last escape. -/
def escapeLines (run : Nat) : List Char → List Char
  | [] => []
  | c :: rest =>
      if c = '"' then
        if run = 2 then '\\' :: '"' :: escapeLines 0 rest else '"' :: escapeLines (run + 1) rest
      else (if c = '\n' then ['\n'] else escape c) ++ escapeLines 0 rest

def firstBreak (text : List Char) : List Char := if text.contains '\n' then ['\n'] else []

def basicQuotes : List Char := ['"', '"', '"']
def literalQuotes : List Char := ['\'', '\'', '\'']

def quoteChars (text : List Char) : List Char :=
  let control := text.any isControl
  let broken := text.contains '\n'
  if !control && !broken && !text.contains '\\' && !text.contains '"' then
    ['"'] ++ escapeLine text ++ ['"']
  else if !control && !broken && !text.contains '\'' then ['\''] ++ text ++ ['\'']
  else if !control && !text.contains '\\' && !hasRun '"' 3 text then
    basicQuotes ++ firstBreak text ++ escapeLines 0 text ++ basicQuotes
  else if !control && !hasRun '\'' 3 text then
    literalQuotes ++ firstBreak text ++ text ++ literalQuotes
  else if broken then basicQuotes ++ firstBreak text ++ escapeLines 0 text ++ basicQuotes
  else ['"'] ++ escapeLine text ++ ['"']

def quoteLimit : Nat := 256

def quote? (text : String) : Option String :=
  if hasRun '"' quoteLimit text.toList || hasRun '\'' quoteLimit text.toList then none
  else some (String.ofList (quoteChars text.toList))

end AlarmClock.Toml

import WireTap.Lib.Text
import WireTap.Daemon.Config

/-!
# Scripts split into statements

`split_statements`: an SQL script cut at its top-level semicolons, with comments and `psql`
meta-commands dropped.  One loop over the characters, which may take more than one off the iterator
at a time; `sql.as_bytes()` is looked at for the byte behind a dash, and a tag's length is in bytes.
-/

namespace WireTap.Gateway

open Lib
open Daemon (isWhitespace trim)

/-- The variables of the loop. -/
structure Splitter where
  out : List (List Char)
  current : List Char
  dollarTag : Option (List Char)
  inSingle : Bool
  inComment : Bool
  atLineStart : Bool
  deriving DecidableEq

/-- The byte behind a character of one byte. -/
def nextByte (rest : List Char) : Option UInt8 := (toUtf8 rest).head?

/-- The opener behind a dollar, `$tag$` where the tag is `[A-Za-z0-9_]*`. -/
def dollarOpener (rest : List Char) : Option (List Char) :=
  let tagBody := rest.takeWhile (· ≠ '$')
  if rest.contains '$' && tagBody.all (fun t => t.isAlphanum || t = '_') then
    some ('$' :: tagBody ++ ['$'])
  else none

namespace Splitter

def push (s : Splitter) (text : List Char) : Splitter := { s with current := s.current ++ text }

/-- What is before a separator is a statement, unless it is blank. -/
def finish (s : Splitter) : Splitter :=
  { s with
    out := if trim s.current = [] then s.out else s.out ++ [trim s.current]
    current := [] }

/-- One turn of the loop, on a character that is no data of a comment, a body or a string and opens
no meta-command. -/
def stepPlain (s : Splitter) (c : Char) (rest : List Char) : Splitter × List Char :=
  if c = '-' ∧ nextByte rest = some 0x2D then ({ s with inComment := true }, rest)
  else if c = '\'' then ({ s with inSingle := true }.push [c], rest)
  else if c = '$' then
    match dollarOpener rest with
    | some tag =>
      let more := (toUtf8 tag).length - 1
      ({ s with dollarTag := some tag }.push (c :: rest.take more), rest.drop more)
    | none => (s.push [c], rest)
  else if c = ';' then (s.finish, rest)
  else (s.push [c], rest)

/-- One turn of the loop, with what is left on the iterator. -/
def step (s : Splitter) (c : Char) (rest : List Char) : Splitter × List Char :=
  if s.inComment then
    if c = '\n' then ({ s with inComment := false, atLineStart := true }.push [c], rest)
    else (s, rest)
  else match s.dollarTag with
    | some tag =>
      if c = '$' && tag.isPrefixOf (c :: rest) then
        let more := (toUtf8 tag).length - 1
        ({ s with dollarTag := none }.push (c :: rest.take more), rest.drop more)
      else (s.push [c], rest)
    | none =>
      if s.inSingle then
        ({ s with inSingle := if c = '\'' then false else true }.push [c], rest)
      else if s.atLineStart && c = '\\' then (s, (rest.dropWhile (· ≠ '\n')).tail)
      else
        let atLineStart :=
          if !isWhitespace c then false else if c = '\n' then true else s.atLineStart
        { s with atLineStart }.stepPlain c rest

/-- The loop; each turn takes a character at least. -/
def loop : Nat → Splitter → List Char → Splitter
  | 0, s, _ => s
  | _, s, [] => s
  | fuel + 1, s, c :: rest => loop fuel (s.step c rest).1 (s.step c rest).2

end Splitter

/-- `split_statements`. -/
def splitStatements (sql : String) : List String :=
  let s := Splitter.loop sql.toList.length ⟨[], [], none, false, false, true⟩ sql.toList
  s.finish.out.map String.ofList

end WireTap.Gateway

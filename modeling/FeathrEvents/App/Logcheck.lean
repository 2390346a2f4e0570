/-
Module: FeathrEvents.App.Logcheck
Purpose: The log harness: how it reads the lines of four services into records of one form, and which
  records it shows.
Trusted boundary: translation by hand of `scripts/logcheck.py`.  `json.loads`, `str` of a JSON value,
  `str.upper`, `strptime` and the Unicode classes `\d` and `\w` are parameters.  The patterns are readers that
  never go back, which is what these patterns need as each part ends where the next one begins.  The order
  of the records that are shown is left out (sorting them raises when their `ts` cannot be compared), and
  so is how they are printed.
Main exports: levels, rank, normLevel, splitLines, Python, Parsed, parseMongo, parseElasticsearch, parseRedis,
  parseApi, Service, parse, Record, Outcome, collect, allRecords, hits
-/
import FeathrEvents.App.Asgi
import FeathrEvents.App.Models

namespace FeathrEvents

namespace Logcheck

/-! ### Levels -/

/-- `LEVELS`, in the order of their ranks. -/
def levels : List String := ["DEBUG", "INFO", "UNKNOWN", "WARN", "ERROR", "FATAL"]

/-- `RANK.get(level, 2)`. -/
def rank (level : String) : ℕ := (levels.idxOf? level).getD 2

def normalize : List (String × String) :=
  [("WARNING", "WARN"), ("CRITICAL", "FATAL"), ("TRACE", "DEBUG"), ("SEVERE", "ERROR")]

def mongoSeverity : List (String × String) :=
  [("F", "FATAL"), ("E", "ERROR"), ("W", "WARN"), ("I", "INFO"), ("D", "DEBUG")]

def redisSeverity : List (String × String) :=
  [("#", "WARN"), ("*", "INFO"), ("-", "DEBUG"), (".", "DEBUG")]

/-- How `json.loads` fails: with a `JSONDecodeError`, or with another exception, as for an integer of too
many digits or too deep a nesting. -/
inductive LoadsError where
  | decodeError
  | other

/-- What the harness uses of Python.  `strptime ts format` is the time in ISO form, `none` for a
`ValueError`. -/
structure Python where
  loads : String → Except LoadsError Json
  str : Json → String
  upper : String → String
  strptime : String → String → Option String
  digit : Char → Bool
  word : Char → Bool

variable (python : Python)

def normLevel (raw : String) : String :=
  let upper := python.upper (strip raw)
  let lvl := (normalize.lookup upper).getD upper
  if lvl ∈ levels then lvl else "UNKNOWN"

def iso (ts : String) : String :=
  ((python.strptime ts "%d %b %Y %H:%M:%S.%f").or
    (python.strptime ts "%Y-%m-%d %H:%M:%S,%f")).getD ts

/-! ### Patterns -/

/-- A part of a pattern: it reads from the front of a text, or fails. -/
abbrev Pattern := StateT (List Char) Option

namespace Pattern

def literal (text : String) : Pattern Unit := fun chars =>
  (chars.dropPrefix? text.toList).map fun rest => ((), rest)

/-- One of a class or more, as many as there are. -/
def many (inside : Char → Bool) : Pattern Unit := fun chars =>
  if chars.takeWhile inside = [] then none else some ((), chars.dropWhile inside)

/-- A number of characters of a class. -/
def times (count : ℕ) (inside : Char → Bool) : Pattern Unit := fun chars =>
  if (chars.take count).length = count ∧ (chars.take count).all inside then
    some ((), chars.drop count)
  else none

/-- One or two of a class. -/
def oneOrTwo (inside : Char → Bool) : Pattern Unit := fun chars =>
  match times 2 inside chars with
  | some read => some read
  | none => times 1 inside chars

/-- `.*$`: what is left of a line, which may end in a line feed. -/
def lineRest : Pattern Unit := fun chars =>
  let rest := chars.dropWhile (· ≠ '\n')
  if rest = [] ∨ rest = ['\n'] then some ((), rest) else none

/-- A group: the text that a part of a pattern reads. -/
def group (part : Pattern Unit) : Pattern String := fun chars =>
  (part chars).map fun read => (String.ofList (chars.take (chars.length - read.2.length)), read.2)

/-- `match`. -/
def run {α : Type} (pattern : Pattern α) (line : String) : Option α :=
  (pattern line.toList).map Prod.fst

end Pattern

open Pattern

/-- The groups `ts`, `lvl`, `src` and `msg` of a pattern. -/
structure Groups where
  ts : String
  lvl : String
  src : String
  msg : String

/-- `\d{2}:\d{2}:\d{2}`. -/
def clockTime : Pattern Unit := do
  times 2 python.digit
  literal ":"
  times 2 python.digit
  literal ":"
  times 2 python.digit

/-- `RE_REDIS`. -/
def redisPattern : Pattern Groups := do
  many python.digit
  literal ":"
  many python.word
  many isSpace
  let ts ← group do
    oneOrTwo python.digit
    literal " "
    times 3 python.word
    literal " "
    times 4 python.digit
    literal " "
    clockTime python
    literal "."
    times 3 python.digit
  many isSpace
  let lvl ← group (times 1 fun char => char ∈ ['.', '-', '*', '#'])
  many isSpace
  let msg ← group lineRest
  return ⟨ts, lvl, "redis", msg⟩

/-- `RE_API_LOGGING`. -/
def apiLogging : Pattern Groups := do
  let ts ← group do
    times 4 python.digit
    literal "-"
    times 2 python.digit
    literal "-"
    times 2 python.digit
    literal " "
    clockTime python
    literal ","
    times 3 python.digit
  many isSpace
  let lvl ← group (many fun char => 'A' ≤ char && char ≤ 'Z')
  many isSpace
  let src ← group (many fun char => !isSpace char)
  many isSpace
  literal "::"
  many isSpace
  let msg ← group lineRest
  return ⟨ts, lvl, src, msg⟩

/-- One of the alternatives of `RE_API_UVICORN`. -/
def apiUvicorn (lvl : String) : Pattern Groups := do
  literal (lvl ++ ":")
  many isSpace
  let msg ← group lineRest
  return ⟨"", lvl, "uvicorn", msg⟩

def uvicornLevels : List String := ["DEBUG", "INFO", "WARNING", "ERROR", "CRITICAL"]

/-! ### The parsers -/

/-- What a parser makes of a line; the fields that are copied from JSON have any type. -/
structure Parsed where
  ts : Json
  level : String
  msg : Json
  src : Json

/-- What a parser raises: for a value without the method `get`, or what `json.loads` raises and it does not
catch. -/
inductive Crash where
  | attributeError
  | loads

/-- The members of a value that `get` is called on. -/
def members : Json → Except Crash (List (String × Json))
  | .object members => .ok members
  | _ => .error .attributeError

/-- `json.loads` as the two parsers of JSON call it. -/
def load (line : String) : Except Crash (Option Json) :=
  match python.loads line with
  | .ok value => .ok (some value)
  | .error .decodeError => .ok none
  | .error .other => .error .loads

/-- `d.get(key, default)`. -/
def get (d : List (String × Json)) (key : String) (default : Json) : Json :=
  (d.lookup key).getD default

def parseMongo (line : String) : Except Crash (Option Parsed) := do
  match ← load python line with
  | none => return none
  | some value =>
      let d ← members value
      let t ← members (get d "t" (.object []))
      return some
        { ts := get t "$date" (.string "")
          level := (mongoSeverity.lookup (strip (python.str (get d "s" (.string ""))))).getD
            "UNKNOWN"
          msg := get d "msg" (.string "")
          src := get d "c" (.string "") }

def parseElasticsearch (line : String) : Except Crash (Option Parsed) := do
  match ← load python line with
  | none => return none
  | some value =>
      let d ← members value
      return some
        { ts := get d "@timestamp" (.string "")
          level := normLevel python (python.str (get d "log.level" (.string "")))
          msg := get d "message" (.string "")
          src := get d "service.name" (.string "") }

def parseRedis (line : String) : Except Crash (Option Parsed) :=
  .ok (((redisPattern python).run line).map fun m =>
    { ts := .string (iso python m.ts)
      level := (redisSeverity.lookup m.lvl).getD "UNKNOWN"
      msg := .string m.msg
      src := .string "redis" })

def parseApi (line : String) : Except Crash (Option Parsed) :=
  match (apiLogging python).run line with
  | some m => .ok (some
      { ts := .string (iso python m.ts)
        level := normLevel python m.lvl
        msg := .string m.msg
        src := .string m.src })
  | none =>
      .ok ((uvicornLevels.findSome? fun lvl => (apiUvicorn lvl).run line).map fun m =>
        { ts := .string ""
          level := normLevel python m.lvl
          msg := .string m.msg
          src := .string "uvicorn" })

/-- `SERVICES`. -/
inductive Service where
  | mongo
  | elasticsearch
  | redis
  | api
deriving DecidableEq

def Service.name : Service → String
  | .mongo => "mongo"
  | .elasticsearch => "elasticsearch"
  | .redis => "redis"
  | .api => "api"

/-- `PARSERS`. -/
def parse : Service → String → Except Crash (Option Parsed)
  | .mongo => parseMongo python
  | .elasticsearch => parseElasticsearch python
  | .redis => parseRedis python
  | .api => parseApi python

/-! ### Collecting -/

structure Record extends Parsed where
  service : String
  raw : String

/-- The ends of lines that `str.splitlines` knows, a pair of carriage return and line feed apart. -/
def isLineEnd (char : Char) : Bool :=
  char.toNat ∈ [10, 11, 12, 13, 28, 29, 30, 133, 8232, 8233]

/-- The loop of `str.splitlines`, with the line so far. -/
def splitLinesFrom (line : List Char) : List Char → List String
  | [] => if line = [] then [] else [String.ofList line]
  | '\r' :: '\n' :: rest => String.ofList line :: splitLinesFrom [] rest
  | char :: rest =>
      if isLineEnd char then String.ofList line :: splitLinesFrom [] rest
      else splitLinesFrom (line ++ [char]) rest

def splitLines (text : String) : List String := splitLinesFrom [] text.toList

/-- What comes of `docker compose logs`: its exit code and output, or an exception that is caught. -/
inductive Outcome where
  | unreadable
  | exited (returncode : ℤ) (stdout : String)

/-- The fallback of a line that no parser knows. -/
def unparsed (line : String) : Parsed where
  ts := .string ""
  level := "UNKNOWN"
  msg := .string (strip line)
  src := .string "?"

/-- The record of a line. -/
def record (service : Service) (line : String) : Except Crash Record := do
  let parsed ← parse python service line
  return { parsed.getD (unparsed line) with service := service.name, raw := line }

/-- The lines that are not blank. -/
def nonBlank (stdout : String) : List String := (splitLines stdout).filter (strip · ≠ "")

def collect (service : Service) : Outcome → Except Crash (List Record)
  | .unreadable => .ok []
  | .exited returncode stdout =>
      if returncode ≠ 0 then .ok [] else (nonBlank stdout).mapM (record python service)

/-- `all_records`, for the services that are wanted. -/
def allRecords (run : Service → Outcome) (wanted : List Service) :
    Except Crash (List Record) := do
  let collected ← wanted.mapM fun svc => collect python svc (run svc)
  return collected.flatten

/-- What is shown at a level or above. -/
def hits (level : String) (allRecords : List Record) : List Record :=
  allRecords.filter fun r => rank level ≤ rank r.level

end Logcheck

end FeathrEvents

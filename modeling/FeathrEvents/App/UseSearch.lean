/-
Module: FeathrEvents.App.UseSearch
Purpose: The hook behind the search box as a machine: what is typed and chosen, the debounce timer, and
  the replies to hints and searches, which arrive in any order.
Trusted boundary: translation by hand of `useSearch` in `application/useSearch.ts`.  The two
  requests of a hint are one here, which fails when either does, as `Promise.all` does.  The field
  `matching` is `matches` there and `opened` is `open`.  The one request for `popular` may be answered
  any number of times here.
Main exports: JsString, trim, minChars, HintReply, SearchReply, UseSearch, UseSearch.type,
  UseSearch.commit, SearchMove, UseSearch.next
-/
import FeathrEvents.Lib.Latest

namespace FeathrEvents

/-- A string of JavaScript: its UTF-16 code units, which `length` counts. -/
abbrev JsString := List UInt16

/-- The code units that `trim` removes: white space and the ends of lines. -/
def isWhitespace (unit : UInt16) : Bool :=
  (9 ≤ unit && unit ≤ 13) || (0x2000 ≤ unit && unit ≤ 0x200A) ||
    unit ∈ [0x20, 0xA0, 0x1680, 0x2028, 0x2029, 0x202F, 0x205F, 0x3000, 0xFEFF]

def trim (text : JsString) : JsString :=
  ((text.dropWhile isWhitespace).reverse.dropWhile isWhitespace).reverse

def minChars : ℕ := 2

structure Suggestion where
  value : JsString
  count : ℕ
deriving DecidableEq

/-- What a hint brings: `terms.terms`, and `hits.total`. -/
structure HintReply where
  terms : List Suggestion
  total : ℕ

/-- What a search brings, of what the hook reads. -/
structure SearchReply (Event : Type*) where
  items : List Event
  total : ℕ

/-- What a search throws: an `Error` with its message, or something else. -/
inductive Thrown where
  | error (message : JsString)
  | other

/-- `err instanceof Error ? err.message : 'search failed'`. -/
def Thrown.text : Thrown → JsString
  | .error message => message
  | .other => "search failed".toList.map fun char => char.toNat.toUInt16

/-- The state of the hook.  `hints` and `runs` have its two counters, and the requests in flight with
what each was asked for. -/
structure UseSearch (Event : Type*) where
  query : JsString
  opened : Bool
  pending : Bool
  suggestions : List Suggestion
  matching : Option ℕ
  popular : List Suggestion
  committed : Option JsString
  items : List Event
  total : Option ℕ
  busy : Bool
  error : Option JsString
  hints : Latest JsString
  runs : Latest JsString
  /-- What the timer that runs will hint for. -/
  timer : Option JsString

/-- What happens to the hook.  A reply names its request by its number, and is `none` or an error when
the request failed. -/
inductive SearchMove (Event : Type*) where
  | type (term : JsString)
  | timeout
  | hintReply (mine : ℕ) (outcome : Option HintReply)
  | commit (term : JsString)
  | searchReply (mine : ℕ) (outcome : Except Thrown (SearchReply Event))
  | popularReply (outcome : Option (List Suggestion))
  | focus
  | dismiss

namespace UseSearch

variable {Event : Type*}

def start : UseSearch Event where
  query := []
  opened := false
  pending := false
  suggestions := []
  matching := none
  popular := []
  committed := none
  items := []
  total := none
  busy := false
  error := none
  hints := .start
  runs := .start
  timer := none

/-- `hint` as far as its `await`. -/
def hint (term : JsString) (search : UseSearch Event) : UseSearch Event :=
  { search with hints := search.hints.issue term }

/-- What a hint leaves in the panel: its reply, or the fallback of its `catch`. -/
def answer : Option HintReply → List Suggestion × Option ℕ
  | some reply => (reply.terms, some reply.total)
  | none => ([], some 0)

/-- `hint` after its `await`. -/
def hintReply (mine : ℕ) (outcome : Option HintReply)
    (search : UseSearch Event) : UseSearch Event :=
  match search.hints.flying.get? mine with
  | none => search
  | some _ =>
      let search := { search with hints := search.hints.settle mine }
      if mine ≠ search.hints.last then search
      else
        let (suggestions, matching) := answer outcome
        { search with suggestions := suggestions, matching := matching, pending := false }

def type (term : JsString) (search : UseSearch Event) : UseSearch Event :=
  let search := { search with query := term, opened := true, timer := none }
  if (trim term).length < minChars then
    { search with
      hints := search.hints.supersede, pending := false, suggestions := [], matching := none }
  else { search with pending := true, timer := some (trim term) }

/-- The debounce timer fires. -/
def timeout (search : UseSearch Event) : UseSearch Event :=
  match search.timer with
  | none => search
  | some term => hint term { search with timer := none }

/-- `commit` as far as its `await`. -/
def commit (term : JsString) (search : UseSearch Event) : UseSearch Event :=
  let trimmed := trim term
  if trimmed = [] then search
  else
    { search with
      timer := none
      hints := search.hints.supersede
      pending := false
      query := trimmed
      opened := false
      runs := search.runs.issue trimmed
      busy := true
      error := none
      committed := some trimmed }

/-- `commit` after its `await`. -/
def searchReply (mine : ℕ) (outcome : Except Thrown (SearchReply Event))
    (search : UseSearch Event) :
    UseSearch Event :=
  match search.runs.flying.get? mine with
  | none => search
  | some _ =>
      let search := { search with runs := search.runs.settle mine }
      if mine ≠ search.runs.last then search
      else
        match outcome with
        | .ok reply => { search with items := reply.items, total := some reply.total, busy := false }
        | .error thrown =>
            { search with error := some thrown.text, items := [], total := some 0, busy := false }

/-- The state after a move; a move that is not possible changes nothing. -/
def next (search : UseSearch Event) : SearchMove Event → UseSearch Event
  | .type term => search.type term
  | .timeout => search.timeout
  | .hintReply mine outcome => search.hintReply mine outcome
  | .commit term => search.commit term
  | .searchReply mine outcome => search.searchReply mine outcome
  | .popularReply outcome => { search with popular := outcome.getD [] }
  | .focus => { search with opened := true }
  | .dismiss => { search with opened := false }

end UseSearch

end FeathrEvents

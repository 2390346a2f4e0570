/-
Module: FeathrEvents.Proofs.SearchCommits
Purpose: The results of the search box: unless a search is under way they are what came of the search that
  was committed last, whatever else arrives.
Trusted boundary: none
Main exports: Commit, committing, lastCommit, SearchOutcome, outcomes, results, LastSearchWins, Reported,
  AnsweredOnce, last_search_wins
-/
import FeathrEvents.Proofs.SearchHints

namespace FeathrEvents

namespace UseSearch

variable {Event : Type*} {search : UseSearch Event} {past : List (Visit Event)}

/-- A commit that searches: the number of its request, and what for. -/
structure Commit where
  number : ℕ
  term : JsString

def committing : Visit Event → Option Commit
  | (search, .commit term) =>
      if trim term = [] then none else some ⟨search.runs.last + 1, trim term⟩
  | _ => none

/-- The most recent commit that searched. -/
def lastCommit (past : List (Visit Event)) : Option Commit := (past.filterMap committing).getLast?

/-- What came of the request of a commit. -/
structure SearchOutcome (Event : Type*) where
  commit : Commit
  outcome : Except Thrown (SearchReply Event)

def searched : Visit Event → Option (SearchOutcome Event)
  | (search, .searchReply mine outcome) =>
      (search.runs.flying.get? mine).map fun term => ⟨⟨mine, term⟩, outcome⟩
  | _ => none

/-- What came of the searches, in the order in which their replies arrived. -/
def outcomes (past : List (Visit Event)) : List (SearchOutcome Event) := past.filterMap searched

/-- The items, the total and the error that an outcome leaves. -/
def results : Except Thrown (SearchReply Event) → List Event × Option ℕ × Option JsString
  | .ok reply => (reply.items, some reply.total, none)
  | .error thrown => ([], some 0, some thrown.text)

def shownResults (search : UseSearch Event) : List Event × Option ℕ × Option JsString :=
  (search.items, search.total, search.error)

/-- With no search under way, the results are what came of the search that was committed last, which was for
`committed` and is answered once; and no reply to an earlier search or to a hint changes them. -/
structure LastSearchWins (past : List (Visit Event)) (search : UseSearch Event) : Prop where
  settled : ∀ term, search.busy = false → search.committed = some term →
    ∃ answered ∈ outcomes past, lastCommit past = some answered.commit ∧
      answered.commit.term = term ∧ search.shownResults = results answered.outcome
  once : ((outcomes past).map fun answered => answered.commit.number).Nodup
  stale : ∀ mine outcome, mine ≠ search.runs.last →
    (search.next (.searchReply mine outcome)).shownResults = search.shownResults
  hinted : ∀ mine outcome,
    (search.next (.hintReply mine outcome)).shownResults = search.shownResults

/-! ### One reply -/

/-- The reply to an earlier search is only taken off the requests in flight. -/
theorem searchReply_stale (search : UseSearch Event) {mine : ℕ} (stale : mine ≠ search.runs.last)
    (outcome : Except Thrown (SearchReply Event)) :
    ∃ runs, runs.last = search.runs.last ∧ runs.newest = search.runs.newest ∧
      search.searchReply mine outcome = { search with runs := runs } := by
  cases flies : search.runs.flying.get? mine with
  | none =>
      refine ⟨search.runs, rfl, rfl, ?_⟩
      rw [searchReply, flies]
  | some term =>
      refine ⟨search.runs.settle mine, rfl, by simp [stale], ?_⟩
      rw [searchReply, flies]
      exact if_pos stale

/-- The reply to the last search decides on the results. -/
theorem searchReply_newest {term : JsString} (flies : search.runs.newest = some term)
    (clear : search.error = none) (outcome : Except Thrown (SearchReply Event)) :
    search.searchReply search.runs.last outcome = { search with
      runs := search.runs.settle search.runs.last
      items := (results outcome).1
      total := (results outcome).2.1
      error := (results outcome).2.2
      busy := false } := by
  cases outcome with
  | ok | error =>
      rw [searchReply, ← Latest.newest, flies]
      simp [Latest.settle, results, clear]

theorem searchReply_runs (search : UseSearch Event) {mine : ℕ} {term : JsString}
    (flies : search.runs.flying.get? mine = some term)
    (outcome : Except Thrown (SearchReply Event)) :
    (search.searchReply mine outcome).runs = search.runs.settle mine := by
  cases outcome with
  | ok | error =>
      rw [searchReply, flies]
      dsimp only
      split <;> rfl

/-- A reply to a hint is none of the search. -/
theorem hintReply_frame (search : UseSearch Event) (mine : ℕ) (outcome : Option HintReply) :
    ∃ hints suggestions matching pending, search.hintReply mine outcome = { search with
      hints := hints, suggestions := suggestions, matching := matching, pending := pending } := by
  rcases hintReply_cases search mine outcome with ⟨-, _, -, reached⟩ | ⟨_, -, -, reached⟩
  · exact ⟨_, _, _, _, reached⟩
  · exact ⟨_, _, _, _, reached⟩

/-! ### Every run -/

theorem lastCommit_snoc (past : List (Visit Event)) (visit : Visit Event) :
    lastCommit (past ++ [visit]) = (committing visit).or (lastCommit past) :=
  Machine.getLast?_filterMap_snoc ..

theorem outcomes_snoc (past : List (Visit Event)) (visit : Visit Event) :
    outcomes (past ++ [visit]) = outcomes past ++ (searched visit).toList :=
  Machine.filterMap_snoc ..

/-- The results are reported: `committed` is the last commit's term, the newest request in flight is its
own, and with no search under way its outcome is shown. -/
structure Reported (past : List (Visit Event)) (search : UseSearch Event) : Prop where
  committed : search.committed = (lastCommit past).map Commit.term
  newest : ∀ term ∈ search.runs.newest,
    search.error = none ∧ lastCommit past = some ⟨search.runs.last, term⟩
  answered : ∀ commit ∈ lastCommit past, search.busy = false →
    ∃ answered ∈ outcomes past, answered.commit = commit ∧
      search.shownResults = results answered.outcome

/-- A move that neither commits nor changes the results. -/
theorem Reported.kept (reported : Reported past search) {visit : Visit Event}
    (commits : committing visit = none) {later : UseSearch Event}
    (committed : later.committed = search.committed) (busy : later.busy = search.busy)
    (same : later.shownResults = search.shownResults) (last : later.runs.last = search.runs.last)
    (newest : later.runs.newest = search.runs.newest) : Reported (past ++ [visit]) later := by
  have error : later.error = search.error := congrArg (·.2.2) same
  constructor
  all_goals simp only [lastCommit_snoc, commits, Option.none_or, committed, busy, same, last, newest,
    error]
  case committed => exact reported.committed
  case newest => exact reported.newest
  case answered =>
    intro commit latest idle
    obtain ⟨answered, member, own, shown⟩ := reported.answered commit latest idle
    rw [outcomes_snoc]
    exact ⟨answered, List.mem_append_left _ member, own, shown⟩

/-- The reply to the last commit's request is reported. -/
theorem Reported.answers (reported : Reported past search) {term : JsString}
    (flies : search.runs.newest = some term) (outcome : Except Thrown (SearchReply Event)) :
    Reported (past ++ [(search, .searchReply search.runs.last outcome)])
      (search.searchReply search.runs.last outcome) := by
  obtain ⟨clear, latest⟩ := reported.newest term flies
  rw [searchReply_newest flies clear]
  constructor
  case committed =>
    rw [lastCommit_snoc]
    exact reported.committed
  case newest =>
    intro other newer
    simp at newer
  case answered =>
    intro commit last idle
    refine ⟨⟨⟨search.runs.last, term⟩, outcome⟩, ?_, ?_, rfl⟩
    · have came : searched (search, .searchReply search.runs.last outcome) =
          some ⟨⟨search.runs.last, term⟩, outcome⟩ := by
        rw [searched, ← Latest.newest, flies]
        rfl
      rw [outcomes_snoc, came]
      exact List.mem_append_right _ (List.mem_singleton_self _)
    · rw [lastCommit_snoc] at last
      exact Option.some.inj (latest.symm.trans last)

theorem Reported.next (reported : Reported past search) (move : SearchMove Event) :
    Reported (past ++ [(search, move)]) (search.next move) := by
  cases move with
  | type term =>
      rw [UseSearch.next, UseSearch.type]
      split <;> exact reported.kept rfl rfl rfl rfl rfl rfl
  | timeout =>
      rw [UseSearch.next, UseSearch.timeout]
      split <;> exact reported.kept rfl rfl rfl rfl rfl rfl
  | hintReply mine outcome =>
      obtain ⟨_, _, _, _, reached⟩ := hintReply_frame search mine outcome
      rw [UseSearch.next, reached]
      exact reported.kept rfl rfl rfl rfl rfl rfl
  | commit term =>
      rw [UseSearch.next, UseSearch.commit]
      split
      · rename_i blank
        exact reported.kept (by rw [committing, if_pos blank]) rfl rfl rfl rfl rfl
      · rename_i searches
        have latest : lastCommit (past ++ [(search, .commit term)]) =
            some ⟨search.runs.last + 1, trim term⟩ := by
          rw [lastCommit_snoc, committing, if_neg searches, Option.some_or]
        refine ⟨?_, ?_, ?_⟩
        · rw [latest]
          rfl
        · intro other newer
          rw [Latest.newest_issue] at newer
          cases newer
          exact ⟨rfl, latest⟩
        · intro commit _ idle
          cases idle
  | searchReply mine outcome =>
      rw [UseSearch.next]
      by_cases current : mine = search.runs.last
      · subst current
        cases flies : search.runs.newest with
        | none =>
            have same : search.searchReply search.runs.last outcome = search := by
              rw [searchReply, ← Latest.newest, flies]
            rw [same]
            exact reported.kept rfl rfl rfl rfl rfl rfl
        | some term => exact reported.answers flies outcome
      · obtain ⟨runs, last, newest, reached⟩ := searchReply_stale search current outcome
        rw [reached]
        exact reported.kept rfl rfl rfl rfl last newest
  | popularReply outcome => exact reported.kept rfl rfl rfl rfl rfl rfl
  | focus => exact reported.kept rfl rfl rfl rfl rfl rfl
  | dismiss => exact reported.kept rfl rfl rfl rfl rfl rfl

theorem reported_start : Reported [] (start : UseSearch Event) := by
  refine ⟨rfl, ?_, ?_⟩
  · intro term newer
    cases newer
  · intro commit last
    cases last

theorem reported_run (moves : List (SearchMove Event)) :
    Reported (Machine.visits UseSearch.next start moves)
      (Machine.run UseSearch.next start moves) :=
  Machine.visits_invariant UseSearch.next Reported (fun _ => True) reported_start
    (fun _ _ move _ reported => reported.next move) moves fun _ _ => trivial

/-- A request is answered once: when it is, it is no longer in flight. -/
structure AnsweredOnce (past : List (Visit Event)) (search : UseSearch Event) : Prop where
  once : ((outcomes past).map fun answered => answered.commit.number).Nodup
  gone : ∀ answered ∈ outcomes past,
    answered.commit.number ≤ search.runs.last ∧
      search.runs.flying.get? answered.commit.number = none

/-- A move that answers no search and starts none. -/
theorem AnsweredOnce.kept (answered : AnsweredOnce past search) {visit : Visit Event}
    (answers : searched visit = none) {later : UseSearch Event} (runs : later.runs = search.runs) :
    AnsweredOnce (past ++ [visit]) later := by
  constructor
  all_goals simp only [outcomes_snoc, answers, Option.toList_none, List.append_nil, runs]
  exacts [answered.once, answered.gone]

theorem AnsweredOnce.next (answered : AnsweredOnce past search) (move : SearchMove Event) :
    AnsweredOnce (past ++ [(search, move)]) (search.next move) := by
  cases move with
  | type term =>
      rw [UseSearch.next, UseSearch.type]
      split <;> exact answered.kept rfl rfl
  | timeout =>
      rw [UseSearch.next, UseSearch.timeout]
      split <;> exact answered.kept rfl rfl
  | hintReply mine outcome =>
      obtain ⟨_, _, _, _, reached⟩ := hintReply_frame search mine outcome
      rw [UseSearch.next, reached]
      exact answered.kept rfl rfl
  | commit term =>
      rw [UseSearch.next, UseSearch.commit]
      split
      · exact answered.kept rfl rfl
      · have unanswered : searched (search, SearchMove.commit term) = none := rfl
        constructor
        all_goals simp only [outcomes_snoc, unanswered, Option.toList_none, List.append_nil]
        case once => exact answered.once
        case gone =>
          intro earlier member
          obtain ⟨made, gone⟩ := answered.gone earlier member
          refine ⟨Nat.le_succ_of_le made, ?_⟩
          rw [Latest.flying_issue, if_neg (by omega)]
          exact gone
  | searchReply mine outcome =>
      rw [UseSearch.next]
      cases flies : search.runs.flying.get? mine with
      | none =>
          have same : search.searchReply mine outcome = search := by rw [searchReply, flies]
          rw [same]
          exact answered.kept (by rw [searched, flies]; rfl) rfl
      | some term =>
          have came : searched (search, .searchReply mine outcome) =
              some ⟨⟨mine, term⟩, outcome⟩ := by
            rw [searched, flies]
            rfl
          constructor
          · rw [outcomes_snoc, came, Option.toList_some, List.map_append, List.map_singleton,
              List.nodup_append]
            refine ⟨answered.once, List.nodup_singleton _, ?_⟩
            rintro number earlier _ new rfl
            obtain ⟨before, member, rfl⟩ := List.mem_map.mp earlier
            have same : before.commit.number = mine := List.mem_singleton.mp new
            rw [← same, (answered.gone before member).2] at flies
            cases flies
          · rw [outcomes_snoc, came, Option.toList_some, searchReply_runs search flies]
            intro earlier member
            rw [Latest.flying_settle]
            rcases List.mem_append.mp member with before | new
            · obtain ⟨made, gone⟩ := answered.gone earlier before
              exact ⟨made, by rw [gone, ite_self]⟩
            · rw [List.mem_singleton.mp new]
              exact ⟨search.runs.le_last flies, if_pos rfl⟩
  | popularReply outcome => exact answered.kept rfl rfl
  | focus => exact answered.kept rfl rfl
  | dismiss => exact answered.kept rfl rfl

theorem answeredOnce_run (moves : List (SearchMove Event)) :
    AnsweredOnce (Machine.visits UseSearch.next start moves)
      (Machine.run UseSearch.next start moves) :=
  Machine.visits_invariant UseSearch.next AnsweredOnce (fun _ => True)
    ⟨List.nodup_nil, nofun⟩ (fun _ _ move _ answered => answered.next move) moves
    fun _ _ => trivial

/-- In every state of every run the last committed search wins, in whatever order the replies come
in and whatever is typed in between. -/
theorem last_search_wins (moves : List (SearchMove Event)) :
    LastSearchWins (Machine.visits next start moves) (Machine.run next start moves) where
  settled term idle committed := by
    have reported := reported_run moves
    rw [reported.committed] at committed
    obtain ⟨commit, latest, own⟩ := Option.map_eq_some_iff.mp committed
    obtain ⟨answered, member, same, shown⟩ := reported.answered commit latest idle
    exact ⟨answered, member, same ▸ latest, same ▸ own, shown⟩
  once := (answeredOnce_run moves).once
  stale mine outcome earlier := by
    obtain ⟨runs, -, -, reached⟩ := searchReply_stale _ earlier outcome
    rw [UseSearch.next, reached]
    rfl
  hinted mine outcome := by
    obtain ⟨_, _, _, _, reached⟩ := hintReply_frame (Machine.run next start moves) mine outcome
    rw [UseSearch.next, reached]
    rfl

end UseSearch

end FeathrEvents

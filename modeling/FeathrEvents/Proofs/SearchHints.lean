/-
Module: FeathrEvents.Proofs.SearchHints
Purpose: What the suggestion panel shows while a word is typed: the answer of a hint for this word, in
  every run in which no reply to the newest hint lands while the debounce timer runs for another word.
Trusted boundary: none
Main exports: landing, lastLanding, Typing, PanelAnswers, LandsEarly, Hinting, panel_answers_iff,
  a_previous_word_is_shown
-/
import FeathrEvents.App.UseSearch
import FeathrEvents.Lib.Runs

namespace FeathrEvents

namespace UseSearch

variable {Event : Type*} {search : UseSearch Event} {move : SearchMove Event}

/-- A move with the state in which it is made. -/
abbrev Visit (Event : Type*) := UseSearch Event × SearchMove Event

/-- The reply that a move brings to the panel: what the hint was for, and what came of it. -/
def landing : Visit Event → Option (JsString × Option HintReply)
  | (search, .hintReply mine outcome) =>
      if mine = search.hints.last then search.hints.newest.map (·, outcome) else none
  | _ => none

/-- The reply that came to the panel last. -/
def lastLanding (past : List (Visit Event)) : Option (JsString × Option HintReply) :=
  (past.filterMap landing).getLast?

/-- Whether a move begins the typing of a word, or ends it with a commit. -/
def typed : Visit Event → Option Bool
  | (_, .type _) => some true
  | (_, .commit term) => if trim term = [] then none else some false
  | _ => none

/-- A word was typed since the last commit. -/
def Typing (past : List (Visit Event)) : Prop := (past.filterMap typed).getLast? = some true

/-- Unless it says that it waits, the panel shows what came of a hint for the typed word, and not
for one that was typed before. -/
def PanelAnswers (past : List (Visit Event)) (search : UseSearch Event) : Prop :=
  Typing past → search.pending = false → minChars ≤ (trim search.query).length →
    ∃ outcome, lastLanding past = some (trim search.query, outcome) ∧
      (search.suggestions, search.matching) = answer outcome

/-- A reply to the newest hint lands while the timer runs for another word.  The panel then shows it
under the word that is being typed. -/
def LandsEarly (visit : Visit Event) : Prop :=
  ∃ word outcome, landing visit = some (word, outcome) ∧ ∃ other ∈ visit.1.timer, other ≠ word

/-! ### What is under way -/

/-- What the timer runs for, and what is hinted for, is the typed word, as soon as the timer has
fired.  A word shorter than `minChars` starts neither. -/
structure Hinting (past : List (Visit Event)) (search : UseSearch Event) : Prop where
  timer : ∀ word ∈ search.timer,
    word = trim search.query ∧ Typing past ∧ minChars ≤ (trim search.query).length
  newest : ∀ word ∈ search.hints.newest,
    (search.timer = none → word = trim search.query) ∧ Typing past ∧
      minChars ≤ (trim search.query).length

@[simp] theorem lastLanding_snoc (past : List (Visit Event)) (visit : Visit Event) :
    lastLanding (past ++ [visit]) = (landing visit).or (lastLanding past) :=
  Machine.getLast?_filterMap_snoc ..

@[simp] theorem typing_snoc (past : List (Visit Event)) (visit : Visit Event) :
    Typing (past ++ [visit]) ↔ typed visit = some true ∨ (typed visit = none ∧ Typing past) := by
  rw [Typing, Machine.getLast?_filterMap_snoc, Option.or_eq_some_iff]
  rfl

/-- A reply to a hint: it does not come to the panel and changes nothing that is shown, or it is the
reply to the newest hint. -/
theorem hintReply_cases (search : UseSearch Event) (mine : ℕ) (outcome : Option HintReply) :
    (landing (search, .hintReply mine outcome) = none ∧
      ∃ hints, (∀ word ∈ hints.newest, word ∈ search.hints.newest) ∧
        search.hintReply mine outcome = { search with hints := hints }) ∨
    ∃ word ∈ search.hints.newest, landing (search, .hintReply mine outcome) = some (word, outcome) ∧
      search.hintReply mine outcome = { search with
        hints := search.hints.settle search.hints.last
        suggestions := (answer outcome).1, matching := (answer outcome).2, pending := false } := by
  by_cases current : mine = search.hints.last
  · subst current
    cases flying : search.hints.newest with
    | none =>
        refine .inl ⟨by simp [landing, flying], search.hints, by simp [flying], ?_⟩
        rw [hintReply, ← Latest.newest, flying]
    | some word =>
        refine .inr ⟨word, rfl, by simp [landing, flying], ?_⟩
        rw [hintReply, ← Latest.newest, flying]
        simp [Latest.settle]
  · refine .inl ⟨if_neg current, ?_⟩
    cases flying : search.hints.flying.get? mine with
    | none =>
        refine ⟨search.hints, fun _ => id, ?_⟩
        rw [hintReply, flying]
    | some word =>
        refine ⟨search.hints.settle mine, by simp [current], ?_⟩
        rw [hintReply, flying]
        exact if_pos current

/-- A reply to a search changes nothing of the type-ahead. -/
theorem searchReply_cases (search : UseSearch Event) (mine : ℕ)
    (outcome : Except Thrown (SearchReply Event)) :
    ∃ runs items total busy error, search.searchReply mine outcome = { search with
      runs := runs, items := items, total := total, busy := busy, error := error } := by
  cases outcome with
  | ok | error =>
      rw [searchReply]
      split
      · exact ⟨_, _, _, _, _, rfl⟩
      · dsimp only
        split <;> exact ⟨_, _, _, _, _, rfl⟩

variable {past : List (Visit Event)}

/-- A move that neither types nor commits keeps what is under way, unless it starts a timer or a hint. -/
theorem Hinting.kept (hinting : Hinting past search) {visit : Visit Event}
    (types : typed visit = none)
    {later : UseSearch Event} (query : later.query = search.query) (timer : later.timer = search.timer)
    (newest : ∀ word ∈ later.hints.newest, word ∈ search.hints.newest) :
    Hinting (past ++ [visit]) later := by
  constructor
  · intro word runs
    rw [timer] at runs
    obtain ⟨same, typing, long⟩ := hinting.timer word runs
    rw [typing_snoc, query]
    exact ⟨same, .inr ⟨types, typing⟩, long⟩
  · intro word flies
    obtain ⟨same, typing, long⟩ := hinting.newest word (newest word flies)
    rw [typing_snoc, query, timer]
    exact ⟨same, .inr ⟨types, typing⟩, long⟩

/-- What is under way after a hint was cancelled, or its timer. -/
theorem Hinting.of_none {later : UseSearch Event} (timer : later.timer = none)
    (newest : later.hints.newest = none) : Hinting past later := by
  constructor <;> simp [timer, newest]

theorem Hinting.next (hinting : Hinting past search) (move : SearchMove Event) :
    Hinting (past ++ [(search, move)]) (search.next move) := by
  cases move with
  | type term =>
      rw [UseSearch.next, UseSearch.type]
      split
      · exact .of_none rfl (Latest.newest_supersede _)
      · rename_i long
        have typing : Typing (past ++ [(search, .type term)]) := (typing_snoc _ _).mpr (.inl rfl)
        constructor
        · intro word runs
          cases runs
          exact ⟨rfl, typing, Nat.le_of_not_lt long⟩
        · intro word flies
          refine ⟨fun idle => ?_, typing, Nat.le_of_not_lt long⟩
          cases idle
  | timeout =>
      rw [UseSearch.next, UseSearch.timeout]
      split
      · exact hinting.kept rfl rfl rfl fun _ => id
      · rename_i word runs
        obtain ⟨same, typing, long⟩ := hinting.timer word runs
        constructor
        · intro other idle
          cases idle
        · intro other flies
          rw [hint, Latest.newest_issue] at flies
          cases flies
          exact ⟨fun _ => same, (typing_snoc _ _).mpr (.inr ⟨rfl, typing⟩), long⟩
  | hintReply mine outcome =>
      rw [UseSearch.next]
      rcases hintReply_cases search mine outcome with ⟨-, hints, newest, reached⟩ | ⟨word, -, -, reached⟩
      · rw [reached]
        exact hinting.kept rfl rfl rfl newest
      · rw [reached]
        exact hinting.kept rfl rfl rfl (by simp)
  | commit term =>
      rw [UseSearch.next, UseSearch.commit]
      split
      · rename_i blank
        exact hinting.kept (by rw [typed, if_pos blank]) rfl rfl fun _ => id
      · exact .of_none rfl (Latest.newest_supersede _)
  | searchReply mine outcome =>
      obtain ⟨runs, items, total, busy, error, reached⟩ := searchReply_cases search mine outcome
      rw [UseSearch.next, reached]
      exact hinting.kept rfl rfl rfl fun _ => id
  | popularReply outcome => exact hinting.kept rfl rfl rfl fun _ => id
  | focus => exact hinting.kept rfl rfl rfl fun _ => id
  | dismiss => exact hinting.kept rfl rfl rfl fun _ => id

/-- Every run keeps account of what is under way. -/
theorem hinting (moves : List (SearchMove Event)) :
    Hinting (Machine.visits UseSearch.next start moves) (Machine.run UseSearch.next start moves) :=
  Machine.visits_invariant UseSearch.next Hinting (fun _ => True) (.of_none rfl rfl)
    (fun _ _ move _ hinting => hinting.next move) moves fun _ _ => trivial

/-! ### What the panel shows -/

/-- A move that brings nothing to the panel, and neither types nor commits. -/
theorem PanelAnswers.kept (answers : PanelAnswers past search) {visit : Visit Event}
    (types : typed visit = none) (lands : landing visit = none) {later : UseSearch Event}
    (query : later.query = search.query) (pending : later.pending = search.pending)
    (suggestions : later.suggestions = search.suggestions)
    (matching : later.matching = search.matching) : PanelAnswers (past ++ [visit]) later := by
  intro typing waits long
  rw [typing_snoc, types] at typing
  rw [lastLanding_snoc, lands, Option.none_or, query, suggestions, matching]
  exact answers (by simpa using typing) (pending ▸ waits) (query ▸ long)

theorem PanelAnswers.next (answers : PanelAnswers past search) (hinting : Hinting past search)
    {move : SearchMove Event} (timely : ¬ LandsEarly (search, move)) :
    PanelAnswers (past ++ [(search, move)]) (search.next move) := by
  cases move with
  | type term =>
      intro typing waits long
      rw [UseSearch.next, UseSearch.type] at waits long
      split at waits
      · rename_i short
        rw [if_pos short] at long
        exact absurd short (Nat.not_lt.mpr long)
      · cases waits
  | timeout =>
      rw [UseSearch.next, UseSearch.timeout]
      split <;> exact answers.kept rfl rfl rfl rfl rfl rfl
  | hintReply mine outcome =>
      rw [UseSearch.next]
      rcases hintReply_cases search mine outcome with
        ⟨lands, hints, -, reached⟩ | ⟨word, newest, lands, reached⟩
      · rw [reached]
        exact answers.kept rfl lands rfl rfl rfl rfl
      · have same : word = trim search.query := by
          cases runs : search.timer with
          | none => exact (hinting.newest word newest).1 runs
          | some other =>
              by_contra differs
              refine timely ⟨word, outcome, lands, other, runs, ?_⟩
              rw [(hinting.timer other runs).1]
              exact Ne.symm differs
        intro _ _ _
        rw [lastLanding_snoc, lands, reached, same]
        exact ⟨outcome, rfl, rfl⟩
  | commit term =>
      rw [UseSearch.next, UseSearch.commit]
      split
      · rename_i blank
        exact answers.kept (by rw [typed, if_pos blank]) rfl rfl rfl rfl rfl
      · rename_i searched
        intro typing
        rw [typing_snoc, typed, if_neg searched] at typing
        simp at typing
  | searchReply mine outcome =>
      obtain ⟨runs, items, total, busy, error, reached⟩ := searchReply_cases search mine outcome
      rw [UseSearch.next, reached]
      exact answers.kept rfl rfl rfl rfl rfl rfl
  | popularReply outcome => exact answers.kept rfl rfl rfl rfl rfl rfl
  | focus => exact answers.kept rfl rfl rfl rfl rfl rfl
  | dismiss => exact answers.kept rfl rfl rfl rfl rfl rfl

/-- After a reply that lands early, the panel shows what came of a hint for another word. -/
theorem not_panelAnswers_of_landsEarly (hinting : Hinting past search) {move : SearchMove Event}
    (early : LandsEarly (search, move)) :
    ¬ PanelAnswers (past ++ [(search, move)]) (search.next move) := by
  obtain ⟨word, outcome, lands, other, runs, differs⟩ := early
  obtain ⟨same, typing, long⟩ := hinting.timer other runs
  cases move with
  | hintReply mine outcome =>
      intro answers
      rcases hintReply_cases search mine outcome with ⟨nothing, -⟩ | ⟨newest, -, reply, reached⟩
      · rw [lands] at nothing
        cases nothing
      · rw [UseSearch.next, reached] at answers
        obtain ⟨shown, last, -⟩ := answers ((typing_snoc _ _).mpr (.inr ⟨rfl, typing⟩)) rfl long
        rw [lastLanding_snoc, lands, Option.some_or, Option.some.injEq, Prod.mk.injEq] at last
        exact differs (same.trans last.1.symm)
  | type | timeout | commit | searchReply | popularReply | focus | dismiss => cases lands

/-- In every state of a run the panel shows what came of a hint for the typed word, unless a reply lands
early in it. -/
theorem panel_answers_iff (moves : List (SearchMove Event)) :
    (∀ first, first <+: moves →
      PanelAnswers (Machine.visits next start first) (Machine.run next start first)) ↔
      ∀ visit ∈ Machine.visits next start moves, ¬ LandsEarly visit := by
  constructor
  · intro answers visit member early
    obtain ⟨first, second, split, reached⟩ := Machine.mem_visits_split next member
    have shown := answers (first ++ [visit.2]) ⟨second, by simp [split]⟩
    obtain ⟨search, move⟩ := visit
    cases reached
    rw [Machine.visits_snoc, Machine.run_snoc] at shown
    exact not_panelAnswers_of_landsEarly (hinting first) early shown
  · intro timely first begins
    induction first using List.reverseRecOn with
    | nil =>
        intro typing
        cases typing
    | append_singleton first move ih =>
        obtain ⟨rest, split⟩ := begins
        rw [Machine.visits_snoc, Machine.run_snoc]
        refine (ih ⟨move :: rest, by simp [← split]⟩).next (hinting first) (timely _ ?_)
        rw [← split, Machine.visits_append, Machine.visits_snoc]
        simp

/-- `cl` is typed and hinted for; `cli` is typed, and then the reply for `cl` arrives. -/
def clThenCli : List (SearchMove Empty) :=
  [.type [99, 108], .timeout, .type [99, 108, 105], .hintReply 1 (some { terms := [], total := 5 })]

/-- Its five matches are shown as those of `cli`. -/
theorem a_previous_word_is_shown :
    ¬ ∀ first, first <+: clThenCli →
      PanelAnswers (Machine.visits next start first) (Machine.run next start first) := by
  intro answers
  obtain ⟨outcome, last, -⟩ := answers clThenCli List.prefix_rfl rfl rfl (by decide)
  have shown : lastLanding (Machine.visits next start clThenCli) =
      some ([99, 108], some { terms := [], total := 5 }) := rfl
  rw [shown, Option.some.injEq, Prod.mk.injEq] at last
  exact absurd last.1 (by decide)

end UseSearch

end FeathrEvents

/-
Module: FeathrEvents.Proofs.SearchTerms
Purpose: What the suggestions are: the pattern of a typed text matches what begins with its cleaned form
  and nothing else, and the suggestions answer what was typed when no character of it is dropped.
Trusted boundary: none
Main exports: include_is_a_prefix, KeepsSafe, Begins, AnswersTyped, SuggestionsAnswer,
  suggestions_answer_iff
-/
import FeathrEvents.App.SearchTerms

namespace FeathrEvents

open Collections (OrderedDict)
open Regexps (Regexp)

/-! ### The pattern -/

/-- The only operator among the characters that are let past is the dot. -/
theorem operator_of_safe {char : Char} (passed : safe char = true) :
    char ∈ Regexps.operators ↔ char = '.' := by
  have only : Regexps.operators.filter safe = ['.'] := by decide
  constructor
  · intro operator
    rw [← List.mem_singleton, ← only]
    exact List.mem_filter.mpr ⟨operator, passed⟩
  · rintro rfl
    decide

/-- Escaping the dots of a safe text quotes all its operators. -/
theorem quote_of_safe {text : List Char} (passed : ∀ char ∈ text, safe char = true) :
    (text.flatMap fun char => if char = '.' then ['\\', '.'] else [char]) = Regexps.quote text := by
  rw [Regexps.quote]
  apply List.flatMap_congr
  intro char member
  by_cases dot : char = '.'
  · subst dot
    rfl
  · rw [if_neg dot, if_neg (mt (operator_of_safe (passed char member)).mp dot)]

theorem safe_of_mem_cleaned {lower : String → String} {startsWith : String} {char : Char}
    (member : char ∈ (cleaned lower startsWith).toList) : safe char = true := by
  rw [cleaned, String.toList_ofList] at member
  exact (List.mem_filter.mp member).2

theorem parse_includePattern (lower : String → String) (startsWith : String) :
    Regexps.parse (includePattern (cleaned lower startsWith)).toList =
      some (Regexps.beginning (cleaned lower startsWith).toList) := by
  rw [includePattern, String.toList_append, String.toList_ofList,
    quote_of_safe fun char => safe_of_mem_cleaned]
  exact Regexps.parse_beginning _

/-- The pattern of a typed text is well formed, and matches exactly what begins with its cleaned
form.  No text can make it an operator of the pattern. -/
theorem include_is_a_prefix (lower : String → String) (startsWith : String) :
    ∃ regexp, Regexps.parse (includePattern (cleaned lower startsWith)).toList = some regexp ∧
      ∀ word, word ∈ regexp.language ↔ (cleaned lower startsWith).toList <+: word :=
  ⟨_, parse_includePattern lower startsWith, Regexps.mem_language_beginning _⟩

theorem patternMatches_iff (lower : String → String) (startsWith text : String) :
    PatternMatches (includePattern (cleaned lower startsWith)) text ↔
      (cleaned lower startsWith).toList <+: text.toList := by
  constructor
  · rintro ⟨regexp, read, matched⟩
    rw [parse_includePattern, Option.some.injEq] at read
    rw [← Regexps.mem_language_beginning, read]
    exact matched
  · intro begins
    refine ⟨Regexps.beginning (cleaned lower startsWith).toList, ?_, ?_⟩
    · exact parse_includePattern lower startsWith
    · rw [Regexps.mem_language_beginning]
      exact begins

/-! ### The suggestions -/

/-- What `str.lower` does with the characters that are let past: it leaves them alone, whatever comes
after them. -/
structure KeepsSafe (lower : String → String) : Prop where
  alone : ∀ text, (∀ char ∈ text.toList, safe char = true) → lower text = text
  ahead : ∀ start rest, (∀ char ∈ start.toList, safe char = true) →
    start.toList <+: (lower (start ++ rest)).toList

/-- The value begins with the typed text, compared case-insensitively. -/
def Begins (lower : String → String) (typed value : String) : Prop :=
  (lower typed).toList <+: (lower value).toList

/-- The suggestions for a typed text answer it. -/
structure AnswersTyped (lower : String → String) (typed : String) (index : TermIndex) (limit : ℕ)
    (terms : List Term) : Prop where
  begins : ∀ term ∈ terms, Begins lower typed term.value
  empty : (∀ value ∈ index.values, ¬ Begins lower typed value) → terms = []
  distinct : (terms.map Term.value).Nodup
  few : terms.length ≤ limit

/-- The suggestions for a typed text answer it, whatever is indexed and whatever of it Elasticsearch
gives. -/
def SuggestionsAnswer (lower : String → String) (typed : String) : Prop :=
  ∀ (index : TermIndex) (aggregate : TermsAgg → List TermBucket) (limit : ℕ), Answers index aggregate →
    AnswersTyped lower typed index limit (EventQueries.searchTerms lower aggregate limit (some typed))

namespace EventQueries

variable {aggregate : TermsAgg → List TermBucket} {limit : ℕ} {including : Option String}

/-- Every value that is seen is the key of a bucket. -/
theorem mem_seenTerms {buckets : List TermBucket} {value : String}
    (seen : value ∈ (seenTerms buckets).keys) : ∃ bucket ∈ buckets, bucket.key = value := by
  induction buckets using List.reverseRecOn with
  | nil => cases seen
  | append_singleton buckets bucket ih =>
      rw [seenTerms, List.foldl_append, List.foldl_cons, List.foldl_nil] at seen
      have later : value = bucket.key ∨ value ∈ (seenTerms buckets).keys := by
        split at seen
        · obtain ⟨count, stored⟩ := OrderedDict.mem_keys.mp seen
          rw [OrderedDict.get?_set] at stored
          split at stored
          · rename_i same
            exact .inl same
          · exact .inr (OrderedDict.mem_keys.mpr ⟨count, stored⟩)
        · exact .inr seen
      rcases later with rfl | before
      · exact ⟨bucket, by simp, rfl⟩
      · obtain ⟨earlier, member, same⟩ := ih before
        exact ⟨earlier, List.mem_append_left _ member, same⟩

/-- The suggestions have the values that were seen, in some order and each once. -/
theorem byCount_perm (seen : OrderedDict String ℕ) :
    ((byCount seen).map Prod.fst).Perm seen.keys :=
  (List.perm_insertionSort _ _).map Prod.fst

theorem limitedTerms_values (limit : ℕ) (ordered : List (String × ℕ)) :
    (limitedTerms limit ordered).map Term.value = (ordered.map Prod.fst).take limit := by
  simp [limitedTerms, List.map_take, Function.comp_def]

/-- A bucket of either aggregation has an indexed value that matches the pattern. -/
theorem key_of_mem_buckets {index : TermIndex} (answers : Answers index aggregate)
    {pattern : String}
    {bucket : TermBucket} (member : bucket ∈ (termBuckets aggregate limit (some pattern)).1) :
    bucket.key ∈ index.values ∧ PatternMatches pattern bucket.key := by
  rcases List.mem_append.mp member with ofType | ofMetadata
  · obtain ⟨indexed, matching⟩ := answers _ bucket ofType
    exact ⟨List.mem_append_left _ indexed, matching pattern rfl⟩
  · obtain ⟨indexed, matching⟩ := answers _ bucket ofMetadata
    exact ⟨List.mem_append_right _ indexed, matching pattern rfl⟩

variable {lower : String → String} {typed : String}

/-- A suggestion for a typed text is indexed, and begins with the cleaned form of the text. -/
theorem suggestion_begins {index : TermIndex} (answers : Answers index aggregate) {term : Term}
    (suggested : term ∈ searchTerms lower aggregate limit (some typed)) :
    term.value ∈ index.values ∧ (cleaned lower typed).toList <+: term.value.toList := by
  rw [searchTerms] at suggested
  split at suggested
  · cases suggested
  · have value := List.mem_map_of_mem (f := Term.value) suggested
    rw [limitedTerms_values] at value
    have seen := (byCount_perm _).mem_iff.mp (List.mem_of_mem_take value)
    obtain ⟨bucket, member, same⟩ := mem_seenTerms seen
    obtain ⟨indexed, matching⟩ := key_of_mem_buckets answers member
    rw [same] at indexed matching
    exact ⟨indexed, (patternMatches_iff lower typed _).mp matching⟩

variable (lower typed aggregate limit) in
/-- No value is suggested twice, and no more than the limit are. -/
theorem suggestions_distinct_and_few :
    ((searchTerms lower aggregate limit (some typed)).map Term.value).Nodup ∧
      (searchTerms lower aggregate limit (some typed)).length ≤ limit := by
  rw [searchTerms]
  split
  · exact ⟨List.nodup_nil, Nat.zero_le _⟩
  · rw [← List.length_map (f := Term.value), limitedTerms_values]
    refine ⟨?_, List.length_take_le ..⟩
    exact ((byCount_perm _).nodup_iff.mpr (OrderedDict.nodup_keys _)).sublist
      (List.take_sublist _ _)

end EventQueries

section Answering

variable {lower : String → String} {typed : String}

/-- With no character dropped, what begins with the cleaned form begins with what was typed. -/
theorem begins_of_cleaned (keeps : KeepsSafe lower)
    (passed : ∀ char ∈ (lower typed).toList, safe char = true) {value : String}
    (starts : (cleaned lower typed).toList <+: value.toList) : Begins lower typed value := by
  obtain ⟨rest, split⟩ := starts
  rw [cleaned, String.toList_ofList, List.filter_eq_self.mpr passed] at split
  have whole : value = lower typed ++ String.ofList rest := by
    rw [← String.toList_inj, String.toList_append, String.toList_ofList, split]
  rw [Begins, whole]
  exact keeps.ahead _ _ passed

theorem suggestions_answer (keeps : KeepsSafe lower)
    (clean : cleaned lower typed = "" ∨ ∀ char ∈ (lower typed).toList, safe char = true) :
    SuggestionsAnswer lower typed := by
  intro index aggregate limit answers
  have begins : ∀ term ∈ EventQueries.searchTerms lower aggregate limit (some typed),
      term.value ∈ index.values ∧ Begins lower typed term.value := by
    intro term suggested
    obtain ⟨indexed, starts⟩ := EventQueries.suggestion_begins answers suggested
    refine ⟨indexed, ?_⟩
    rcases clean with dropped | passed
    · rw [EventQueries.searchTerms, dropped] at suggested
      cases suggested
    · exact begins_of_cleaned keeps passed starts
  obtain ⟨distinct, few⟩ := EventQueries.suggestions_distinct_and_few aggregate limit lower typed
  refine ⟨fun term suggested => (begins term suggested).2, fun nothing => ?_, distinct, few⟩
  refine List.eq_nil_iff_forall_not_mem.mpr fun term suggested => ?_
  obtain ⟨indexed, starts⟩ := begins term suggested
  exact nothing term.value indexed starts

/-- Elasticsearch over an index with one value in `metadata`, whose pattern it is asked for. -/
def oneValue (value pattern : String) (agg : TermsAgg) : List TermBucket :=
  if agg.field = "metadata" ∧ agg.including = some pattern then [{ key := value, docCount := 1 }]
  else []

theorem answers_oneValue (lower : String → String) (typed : String) :
    Answers { eventTypes := [], metadata := [cleaned lower typed] }
      (oneValue (cleaned lower typed) (includePattern (cleaned lower typed))) := by
  intro agg bucket given
  rw [oneValue] at given
  split at given
  · rename_i asked
    cases List.mem_singleton.mp given
    refine ⟨?_, fun pattern included => ?_⟩
    · rw [asked.1, TermIndex.terms, if_neg (by decide)]
      exact List.mem_singleton_self _
    · rw [asked.2, Option.mem_some] at included
      rw [← included]
      exact (patternMatches_iff lower typed (cleaned lower typed)).mpr List.prefix_rfl
  · cases given

/-- The one value is suggested. -/
theorem searchTerms_oneValue (left : cleaned lower typed ≠ "") :
    EventQueries.searchTerms lower
        (oneValue (cleaned lower typed) (includePattern (cleaned lower typed))) 12 (some typed) =
      [{ value := cleaned lower typed, count := 1 }] := by
  have types : oneValue (cleaned lower typed) (includePattern (cleaned lower typed))
      { field := "event_type", size := 12,
        including := some (includePattern (cleaned lower typed)) } = [] := by
    rw [oneValue, if_neg (by simp)]
  have values : oneValue (cleaned lower typed) (includePattern (cleaned lower typed))
      { field := "metadata", size := 12,
        including := some (includePattern (cleaned lower typed)) } =
        [{ key := cleaned lower typed, docCount := 1 }] := by
    rw [oneValue, if_pos ⟨rfl, rfl⟩]
  rw [EventQueries.searchTerms, if_neg left, EventQueries.termBuckets, types, values]
  rfl

/-- When a character is dropped and another is not, the cleaned form is suggested where it is indexed, and
it does not begin with what was typed. -/
theorem not_suggestions_answer (keeps : KeepsSafe lower) (left : cleaned lower typed ≠ "")
    (dropped : ∃ char ∈ (lower typed).toList, safe char = false) :
    ¬ SuggestionsAnswer lower typed := by
  intro answer
  have begins : Begins lower typed (cleaned lower typed) := by
    refine (answer _ _ 12 (answers_oneValue lower typed)).begins
      { value := cleaned lower typed, count := 1 } ?_
    rw [searchTerms_oneValue left]
    exact List.mem_singleton.mpr rfl
  have shorter : (cleaned lower typed).toList.length < (lower typed).toList.length := by
    rw [cleaned, String.toList_ofList]
    obtain ⟨char, member, unsafely⟩ := dropped
    exact List.length_filter_lt_length_iff_exists.mpr ⟨char, member, by simp [unsafely]⟩
  rw [Begins, keeps.alone _ fun char => safe_of_mem_cleaned] at begins
  exact absurd begins.length_le (not_le.mpr shorter)

/-- The suggestions answer what was typed when none of its characters is dropped, or all are.
Otherwise they answer a text without the dropped ones. -/
theorem suggestions_answer_iff (lower : String → String) (keeps : KeepsSafe lower)
    (typed : String) :
    SuggestionsAnswer lower typed ↔
      cleaned lower typed = "" ∨ ∀ char ∈ (lower typed).toList, safe char = true := by
  refine ⟨fun answer => ?_, suggestions_answer keeps⟩
  by_contra unclean
  push Not at unclean
  obtain ⟨left, char, member, dropped⟩ := unclean
  exact not_suggestions_answer keeps left ⟨char, member, eq_false_of_ne_true dropped⟩ answer

/-- `str.lower` on texts of ASCII characters. -/
def asciiLower (text : String) : String := String.ofList (text.toList.map Char.toLower)

theorem toLower_of_safe {char : Char} (passed : safe char = true) : char.toLower = char := by
  have capitals : ∀ code : Fin 26, safe (Char.ofNat ('A'.toNat + code)) = false := by decide
  delta Char.toLower
  rw [dif_neg]
  rintro ⟨low, high⟩
  have low : 'A'.toNat ≤ char.toNat := low
  have high : char.toNat ≤ 'Z'.toNat := high
  have capital := capitals ⟨char.toNat - 'A'.toNat, by simp at low high ⊢; omega⟩
  rw [Nat.add_sub_cancel' low, Char.ofNat_toNat, passed] at capital
  cases capital

theorem asciiLower_keepsSafe : KeepsSafe asciiLower := by
  have same {start : String} (passed : ∀ char ∈ start.toList, safe char = true) :
      start.toList.map Char.toLower = start.toList := by
    refine (List.map_congr_left fun char member => ?_).trans (List.map_id _)
    exact toLower_of_safe (passed char member)
  constructor
  · intro text passed
    rw [asciiLower, same passed, String.ofList_toList]
  · intro start rest passed
    rw [asciiLower, String.toList_ofList, String.toList_append, List.map_append, same passed]
    exact List.prefix_append _ _

/-- For `Click` the suggestions answer. -/
theorem suggestions_answer_iff_click :
    KeepsSafe asciiLower ∧ SuggestionsAnswer asciiLower "Click" :=
  ⟨asciiLower_keepsSafe,
    (suggestions_answer_iff asciiLower asciiLower_keepsSafe "Click").mpr (.inr (List.all_eq_true.mp (by decide)))⟩

/-- For `a#b` they do not: `ab` is suggested. -/
theorem a_dropped_character_is_not_answered : ¬ SuggestionsAnswer asciiLower "a#b" :=
  not_suggestions_answer asciiLower_keepsSafe (by decide) ⟨'#', by decide, rfl⟩

end Answering

end FeathrEvents

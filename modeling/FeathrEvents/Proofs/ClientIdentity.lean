/-
Module: FeathrEvents.Proofs.ClientIdentity
Purpose: The address that a client is limited by is the one that the nearest proxy appends, or that of the
  socket, whatever the client writes into its headers.
Trusted boundary: none
Main exports: Line, encode, Address, IsForwardedFor, Appended, decodeHeaders_encode, clientOf_appended,
  IdentityIsGiven, identity_is_given
-/
import FeathrEvents.App.RateLimitMiddleware

namespace FeathrEvents

open Collections (OrderedDict)

/-- The name and the value of a header line. -/
abbrev Line := String × String

/-- Header lines on the wire. -/
def encode (lines : List Line) : List (ByteArray × ByteArray) :=
  lines.map fun line => (line.1.toUTF8, line.2.toUTF8)

/-- An address, without commas and whitespace, as a proxy writes it: nothing in it ends an item of
the header or is stripped from it. -/
structure Address where
  text : String
  nonempty : text ≠ ""
  plain : ∀ char ∈ text.toList, char ≠ ',' ∧ isSpace char = false

/-- The line is an X-Forwarded-For, in whatever letter case. -/
def IsForwardedFor (lower : String → String) (line : Line) : Prop :=
  lower line.1 = "x-forwarded-for"

/-- What the nearest proxy makes of the lines that a client wrote: it adds its address to the last
X-Forwarded-For, or writes one of its own after them. -/
inductive Appended (lower : String → String)
    (address : Address) : List Line → List Line → Prop where
  | extended (before after : List Line) (name value : String)
      (forwarded : IsForwardedFor lower (name, value))
      (last : ∀ line ∈ after, ¬ IsForwardedFor lower line) :
      Appended lower address (before ++ (name, value) :: after)
        (before ++ (name, value ++ ", " ++ address.text) :: after)
  | added (before after : List Line) (name : String)
      (forwarded : IsForwardedFor lower (name, address.text))
      (last : ∀ line ∈ after, ¬ IsForwardedFor lower line) :
      Appended lower address (before ++ after) (before ++ (name, address.text) :: after)

variable {lower : String → String} {address : Address} {lines written : List Line}

/-! ### Headers -/

theorem decode_toUTF8 (text : String) : decode text.toUTF8 = .ok text := by
  have decoded : String.fromUTF8? text.toUTF8 = some text := dif_pos text.isValidUTF8
  rw [decode, decoded]

/-- Every encoded line is decoded, and assigned in its turn. -/
theorem decodeHeaders_encode (lower : String → String) (lines : List Line) :
    decodeHeaders lower (encode lines) =
      .ok (lines.foldl (fun dict line => dict.set (lower line.1) line.2) .empty) := by
  rw [decodeHeaders, encode]
  generalize (OrderedDict.empty : OrderedDict String String) = dict
  induction lines generalizing dict with
  | nil => rfl
  | cons line lines ih =>
      rw [List.map_cons, List.foldlM_cons, decode_toUTF8, decode_toUTF8]
      exact ih _

/-- The last line of a name is the value of that name. -/
theorem get?_lines (before after : List Line) (line : Line) (dict : OrderedDict String String)
    (last : ∀ later ∈ after, lower later.1 ≠ lower line.1) :
    ((before ++ line :: after).foldl (fun dict line => dict.set (lower line.1) line.2) dict).get?
      (lower line.1) = some line.2 := by
  induction after using List.reverseRecOn with
  | nil => simp
  | append_singleton after later ih =>
      have other : lower line.1 ≠ lower later.1 := fun same =>
        last later (by simp) same.symm
      rw [← List.cons_append, ← List.append_assoc, List.foldl_append, List.foldl_cons,
        List.foldl_nil, OrderedDict.get?_set, if_neg other]
      exact ih fun earlier member => last earlier (List.mem_append_left _ member)

/-! ### The last part -/

theorem takeWhile_plain (address : Address) (rest : List Char) :
    (address.text.toList.reverse ++ rest).takeWhile (· ≠ ',') =
      address.text.toList.reverse ++ rest.takeWhile (· ≠ ',') := by
  apply List.takeWhile_append_of_pos
  intro char member
  exact decide_eq_true (address.plain char (List.mem_reverse.mp member)).1

theorem lastPart_append (front : String) (address : Address) :
    lastPart (front ++ ", " ++ address.text) = " " ++ address.text := by
  have shape : (front ++ ", " ++ address.text).toList.reverse =
      address.text.toList.reverse ++ ' ' :: ',' :: front.toList.reverse := by
    simp [String.toList_append]
  rw [lastPart, shape, takeWhile_plain]
  apply String.toList_injective
  simp [String.toList_append]

theorem lastPart_address (address : Address) : lastPart address.text = address.text := by
  have whole := takeWhile_plain address []
  rw [List.append_nil, List.takeWhile_nil, List.append_nil] at whole
  rw [lastPart, whole, List.reverse_reverse, String.ofList_toList]

/-- Nothing is stripped from the front of a list without whitespace. -/
theorem dropWhile_plain {chars : List Char} (plain : ∀ char ∈ chars, isSpace char = false) :
    chars.dropWhile isSpace = chars := by
  cases chars with
  | nil => rfl
  | cons char chars => simp [plain char (List.mem_cons_self ..)]

/-- Only the space of `", "` is stripped. -/
theorem strip_address (address : Address) :
    strip address.text = address.text ∧ strip (" " ++ address.text) = address.text := by
  have plain : ∀ char ∈ address.text.toList, isSpace char = false :=
    fun char member => (address.plain char member).2
  have reversed : ∀ char ∈ address.text.toList.reverse, isSpace char = false :=
    fun char member => plain char (List.mem_reverse.mp member)
  have space : (" " ++ address.text).toList.dropWhile isSpace =
      address.text.toList.dropWhile isSpace := by
    rw [String.toList_append]
    rfl
  rw [strip, strip, space, dropWhile_plain plain, dropWhile_plain reversed, List.reverse_reverse,
    String.ofList_toList]
  exact ⟨rfl, rfl⟩

/-! ### The identity -/

/-- The last X-Forwarded-For decides on the client, when it is not empty. -/
theorem clientOf_of_last {before after : List Line} {name value : String} (scope : Scope)
    (forwarded : IsForwardedFor lower (name, value))
    (last : ∀ line ∈ after, ¬ IsForwardedFor lower line) (some : value ≠ "") :
    clientOf lower true
      { scope with headers := .some (encode (before ++ (name, value) :: after)) } =
        .ok (strip (lastPart value)) := by
  have found := get?_lines before after (name, value) .empty
    fun later member same => last later member (same.trans forwarded)
  rw [forwarded] at found
  have given : (Option.some value).filter (fun text => text ≠ "") = Option.some value := by
    simp [some]
  simp only [clientOf, if_true, Option.getD_some, decodeHeaders_encode, bind, Except.bind, found,
    given]
  rfl

/-- A trusted proxy decides on the client, whatever the client wrote. -/
theorem clientOf_appended (scope : Scope) (appended : Appended lower address lines written) :
    clientOf lower true { scope with headers := some (encode written) } = .ok address.text := by
  cases appended with
  | extended before after name value forwarded last =>
      have own : IsForwardedFor lower (name, value ++ ", " ++ address.text) := forwarded
      have some : value ++ ", " ++ address.text ≠ "" := by
        intro empty
        have chars := congrArg String.toList empty
        simp [String.toList_append] at chars
      rw [clientOf_of_last scope own last some, lastPart_append, (strip_address address).2]
  | added before after name forwarded last =>
      rw [clientOf_of_last scope forwarded last address.nonempty, lastPart_address,
        (strip_address address).1]

/-- Requests with one client make one check. -/
theorem request_eq_of_clientOf {middleware : RateLimitMiddleware} {scope : Scope}
    {headers others : Option (List (ByteArray × ByteArray))}
    (same : clientOf middleware.lower middleware.trustForwardedFor
        { scope with headers := headers } =
      clientOf middleware.lower middleware.trustForwardedFor { scope with headers := others })
    (now : ℚ) :
    middleware.request now { scope with headers := headers } =
      middleware.request now { scope with headers := others } := by
  simp only [RateLimitMiddleware.request, same]

/-- What clients write does not decide on the bucket that they draw from: the address that the proxy
has seen does where it is trusted, and that of the socket otherwise. -/
structure IdentityIsGiven (lower : String → String) (scope : Scope) (address : Address)
    (written others : List Line) : Prop where
  trusted : clientOf lower true { scope with headers := some (encode written) } = .ok address.text
  untrusted : ∀ headers, clientOf lower false { scope with headers := headers } = .ok scope.peer
  oneBucket : ∀ now,
    RateLimitMiddleware.request ⟨lower, true⟩ now { scope with headers := some (encode written) } =
      RateLimitMiddleware.request ⟨lower, true⟩ now { scope with headers := some (encode others) }
  oneSocket : ∀ now headers others,
    RateLimitMiddleware.request ⟨lower, false⟩ now { scope with headers := headers } =
      RateLimitMiddleware.request ⟨lower, false⟩ now { scope with headers := others }

/-- Behind a trusted proxy a request is limited by the address that the proxy appends, and otherwise by
that of its socket; two requests that differ in what the client wrote make the same check. -/
theorem identity_is_given (lower : String → String) (scope : Scope) (address : Address)
    (lines written otherLines others : List Line) (appended : Appended lower address lines written)
    (other : Appended lower address otherLines others) :
    IdentityIsGiven lower scope address written others where
  trusted := clientOf_appended scope appended
  untrusted _ := rfl
  oneBucket := request_eq_of_clientOf
    ((clientOf_appended scope appended).trans (clientOf_appended scope other).symm)
  oneSocket _ _ _ := request_eq_of_clientOf rfl _

/-- The address of a client as its proxy sees it. -/
def seen : Address where
  text := "203.0.113.7"
  nonempty := by decide
  plain char member := by
    have plain : "203.0.113.7".toList.all (fun char => char ≠ ',' ∧ isSpace char = false) := by decide
    exact of_decide_eq_true (List.all_eq_true.mp plain char member)

/-- A spoofed X-Forwarded-For of two addresses. -/
def spoofed : List Line := [("x-forwarded-for", "10.0.0.1, 10.0.0.2"), ("accept", "*/*")]

theorem identity_is_given_spoofed :
    IdentityIsGiven id { type := .http } seen
      [("x-forwarded-for", "10.0.0.1, 10.0.0.2" ++ ", " ++ "203.0.113.7"), ("accept", "*/*")]
      [("x-forwarded-for", "203.0.113.7"), ("accept", "*/*")] := by
  have last : ∀ line ∈ [(("accept", "*/*") : Line)], ¬ IsForwardedFor id line := by
    simp [IsForwardedFor]
  exact identity_is_given id { type := .http } seen spoofed _ [("accept", "*/*")] _
    (.extended [] _ _ _ rfl last) (.added [] _ _ rfl last)

end FeathrEvents

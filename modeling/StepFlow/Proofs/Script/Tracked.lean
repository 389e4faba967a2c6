import StepFlow.Proofs.Script.Cursor
import StepFlow.Proofs.Script.Escaped
import StepFlow.Proofs.Text.Bytes

/-!
What a cursor does to the unread text. A cursor that never was behind the end of its text stands
before an end of it, and a walk from there agrees with a reading of that end if both give the same
value before the same unread text, or the same fault there. Each step, run and step back agrees
with what it does to the unread text, so it stays inside.
-/
namespace StepFlow.Script.Literal.Cursor
open Text

/-- The cursor stands before the unread text `s` and never was behind the end of the text. -/
structure Before (text s : List Char) (c : Cursor) : Prop where
  unread : text.drop c.place = s
  inside : ∀ place ∈ c.places, place ≤ text.length

/-- A walk from a cursor ends as a reading does. -/
inductive Agrees (text : List Char) {α : Type} (w : Walk α) (c : Cursor) : Reading α → Prop where
  | ok {a : α} {rest : List Char} {c' : Cursor} (ended : w.run c = .ok a c')
      (before : Before text rest c') : Agrees text w c (.ok (a, rest))
  | error {fault : Fault} {c' : Cursor}
      (ended : w.run c =
        .error (.fault ⟨fault.cause, utf8Length text - utf8Length fault.unread⟩) c')
      (before : Before text fault.unread c') : Agrees text w c (.error fault)

section
variable {text rest : List Char} {α β : Type} {w : Walk α} {k : α → Walk β} {c : Cursor} {a : α}
  {r : Reading α} {t : Reading β}

theorem bind_run {c' : Cursor} (ended : w.run c = .ok a c') : (w >>= k).run c = (k a).run c' := by
  simp only [EStateM.run, bind, EStateM.bind] at ended ⊢
  rw [ended]

theorem bind_halts {c' : Cursor} {halt : Halt} (ended : w.run c = .error halt c') :
    (w >>= k).run c = .error halt c' := by
  simp only [EStateM.run, bind, EStateM.bind] at ended ⊢
  rw [ended]

theorem agrees_pure (before : Before text rest c) : Agrees text (pure a) c (.ok (a, rest)) :=
  .ok rfl before

theorem agrees_bind (first : Agrees text w c r)
    (next : ∀ a rest c, r = .ok (a, rest) → Before text rest c → Agrees text (k a) c t)
    (stops : ∀ fault, r = .error fault → t = .error fault := by
      intro fault failed
      rw [failed]) : Agrees text (w >>= k) c t := by
  cases first with
  | ok ended before =>
    cases next _ _ _ rfl before with
    | ok ended' before => exact .ok ((bind_run ended).trans ended') before
    | error ended' before => exact .error ((bind_run ended).trans ended') before
  | error ended before =>
    rw [stops _ rfl]
    exact .error (bind_halts ended) before

theorem goes_bind (first : Agrees text w c (.ok (a, rest)))
    (next : ∀ c, Before text rest c → Agrees text (k a) c t) : Agrees text (w >>= k) c t := by
  refine agrees_bind first (fun a rest c read before => ?_) fun fault failed => by cases failed
  cases read
  exact next c before

theorem stops_bind {fault : Fault} (first : Agrees text w c (.error fault)) :
    Agrees text (w >>= k) c (.error fault) :=
  agrees_bind first (fun _ _ _ read => by cases read) fun _ failed => by cases failed; rfl

theorem agrees_map {f : α → β} (first : Agrees text w c r)
    (gives : ∀ a rest, r = .ok (a, rest) → t = .ok (f a, rest) := by
      intro a rest read
      rw [read])
    (stops : ∀ fault, r = .error fault → t = .error fault := by
      intro fault failed
      rw [failed]) : Agrees text (w >>= fun a => pure (f a)) c t := by
  refine agrees_bind first (fun a rest c read before => ?_) stops
  rw [gives a rest read]
  exact agrees_pure before

theorem agrees_withItem {w : Walk (List α)} {r : Reading (List α)} (others : Agrees text w c r) :
    Agrees text (w >>= fun items => pure (a :: items)) c (withItem a r) :=
  agrees_map others (fun _ _ read => by rw [read]; rfl) fun _ failed => by rw [failed]; rfl

end

theorem charOffsets_get (start : Nat) (s : List Char) (i : Nat) :
    (charOffsets start s)[i]? = s[i]?.map fun c => (start + utf8Length (s.take i), c) := by
  induction s generalizing start i with
  | nil => rfl
  | cons c s ih =>
    cases i with
    | zero => rfl
    | succ i =>
      simp only [charOffsets, List.getElem?_cons_succ, List.take_succ_cons, utf8Length, ih,
        Nat.add_assoc]

section
variable {text s rest : List Char} {c c' : Cursor} {ch : Char}

theorem place_length (before : Before text s c) : c.place + s.length = text.length := by
  have here := before.inside c.place List.mem_cons_self
  rw [← before.unread, List.length_drop]
  omega

theorem turns_enough (before : Before text s c) : s.length < turns text := by
  have length := place_length before
  rw [turns]
  omega

theorem before_goTo (place : Nat) (before : Before text s c) (inside : place ≤ text.length) :
    Before text (text.drop place) ⟨place, c.places⟩ :=
  ⟨rfl, List.forall_mem_cons.mpr ⟨inside, before.inside⟩⟩

theorem head_unread (before : Before text s c) : text[c.place]? = s.head? := by
  rw [← before.unread, List.head?_drop]

theorem byteOffset_unread (before : Before text s c) :
    byteOffset text c.place = utf8Length text - utf8Length s := by
  have whole := utf8Length_append (text.take c.place) (text.drop c.place)
  rw [List.take_append_drop, before.unread] at whole
  rw [byteOffset, charOffsets_get, head_unread before]
  cases s with
  | nil => rfl
  | cons ch s =>
    simp only [List.head?_cons, Option.map_some, Nat.zero_add]
    omega

theorem error_agrees {α : Type} {cause : Cause} (before : Before text s c) :
    Agrees text (error text cause : Walk α) c (fail cause s) := by
  have ended : (error text cause : Walk α).run c =
      .error (.fault ⟨cause, utf8Length text - utf8Length s⟩) c := by
    rw [EStateM.run, error, byteOffset_unread before]
  exact .error ended before

theorem peek_agrees (before : Before text s c) : Agrees text (peek text) c (.ok (s.head?, s)) := by
  refine .ok ?_ before
  rw [EStateM.run, peek, charOffsets_get, head_unread before]
  cases s.head? <;> rfl

theorem here_agrees (before : Before text s c) : Agrees text here c (.ok (c.place, s)) :=
  .ok rfl before

theorem step_agrees (before : Before text (ch :: rest) c) :
    Agrees text step c (.ok ((), rest)) := by
  have length := place_length before
  have next := before_goTo (c.place + 1) before (by simp at length; omega)
  rw [← List.tail_drop, before.unread] at next
  exact .ok rfl next

theorem goTo_agrees (before : Before text s c) (earlier : Before text rest c') :
    Agrees text (goTo c'.place) c (.ok ((), rest)) := by
  have back := before_goTo c'.place before (earlier.inside c'.place List.mem_cons_self)
  rw [earlier.unread] at back
  exact .ok rfl back

theorem stepBack_agrees (before : Before text rest c) (earlier : Before text (ch :: rest) c') :
    Agrees text stepBack c (.ok ((), ch :: rest)) := by
  have behind := place_length before
  have length := place_length earlier
  rw [List.length_cons] at length
  have same : c.place - 1 = c'.place := by omega
  have back := before_goTo c'.place before (earlier.inside c'.place List.mem_cons_self)
  rw [earlier.unread] at back
  refine .ok ?_ back
  rw [EStateM.run, stepBack, if_neg (by omega), same]
  rfl

theorem cut_agrees {taken : List Char} (start : Before text (taken ++ rest) c')
    (stop : Before text rest c) : Agrees text (cut text c'.place) c (.ok (taken, rest)) := by
  have began := place_length start
  have ended := place_length stop
  rw [List.length_append] at began
  have length : c.place - c'.place = taken.length := by omega
  refine .ok ?_ stop
  rw [EStateM.run, cut, if_pos ⟨by omega, by omega⟩, length, start.unread, List.take_left]

theorem bump_agrees (before : Before text s c) :
    Agrees text (bump text) c (.ok (s.head?, s.tail)) := by
  refine goes_bind (peek_agrees before) fun c before => ?_
  cases s with
  | nil => exact agrees_pure before
  | cons ch rest => exact goes_bind (step_agrees before) fun c before => agrees_pure before

theorem runLoop_agrees (kind : Char → Bool) {n : Nat} (enough : s.length < n)
    (before : Before text s c) :
    Agrees text (runLoop text kind n) c (.ok (s.takeWhile kind, s.dropWhile kind)) := by
  induction n generalizing s c with
  | zero => omega
  | succ n ih =>
    refine goes_bind (peek_agrees before) fun c before => ?_
    cases s with
    | nil => exact agrees_pure before
    | cons ch rest =>
      rw [List.length_cons] at enough
      by_cases is : kind ch
      · rw [List.takeWhile_cons_of_pos is, List.dropWhile_cons_of_pos is]
        simp only [List.head?_cons, if_pos is]
        refine goes_bind (step_agrees before) fun c before => ?_
        exact goes_bind (ih (by omega) before) fun c before => agrees_pure before
      · rw [List.takeWhile_cons_of_neg is, List.dropWhile_cons_of_neg is]
        simp only [List.head?_cons, if_neg is]
        exact agrees_pure before

theorem run_agrees (kind : Char → Bool) (before : Before text s c) :
    Agrees text (run text kind) c (.ok (s.takeWhile kind, s.dropWhile kind)) :=
  runLoop_agrees kind (turns_enough before) before

theorem skip_agrees (before : Before text s c) :
    Agrees text (skip text) c (.ok ((), skipBlanks s)) :=
  goes_bind (run_agrees isBlank before) fun _ before => agrees_pure before

theorem stepIf_agrees (kind : Char → Bool) (before : Before text s c) :
    Agrees text (stepIf text kind) c
      (.ok (!(takeOne kind s).1.isEmpty, (takeOne kind s).2)) := by
  refine goes_bind (peek_agrees before) fun c before => ?_
  cases s with
  | nil => exact agrees_pure before
  | cons ch rest =>
    by_cases is : kind ch
    · rw [takeOne_one is]
      simp only [List.head?_cons, if_pos is]
      exact goes_bind (step_agrees before) fun c before => agrees_pure before
    · simp only [takeOne, List.head?_cons, if_neg is]
      exact agrees_pure before

theorem expect_agrees (wanted : Char) (before : Before text s c) :
    Agrees text (expect text wanted) c (Literal.expect wanted s) := by
  refine goes_bind (skip_agrees before) fun c before => ?_
  refine goes_bind (peek_agrees before) fun c before => ?_
  rw [Literal.expect]
  cases skipped : skipBlanks s with
  | nil => exact error_agrees (skipped ▸ before)
  | cons ch rest =>
    rw [skipped] at before
    dsimp only [List.head?_cons]
    by_cases same : ch = wanted
    · rw [if_pos same, if_pos same]
      exact step_agrees before
    · rw [if_neg same, if_neg same]
      exact error_agrees before

theorem expect_here (solid : isBlank ch = false) (before : Before text (ch :: rest) c) :
    Agrees text (expect text ch) c (.ok ((), rest)) := by
  have opened := expect_agrees ch before
  rw [Literal.expect, skipBlanks_other solid] at opened
  dsimp only at opened
  rwa [if_pos rfl] at opened

theorem run_stays {kind : Char → Bool} (before : Before text s c)
    (behind : Before text (s.dropWhile kind) c') :
    c'.place = c.place ↔ (s.takeWhile kind).isEmpty = true := by
  have began := place_length before
  have ended := place_length behind
  have split := congrArg List.length (takeWhile_split kind s)
  rw [List.length_append] at split
  rw [List.isEmpty_iff_length_eq_zero]
  omega

theorem empty_run {kind : Char → Bool} (empty : (s.takeWhile kind).isEmpty = true) :
    s.dropWhile kind = s := by
  have split := takeWhile_split kind s
  rw [List.isEmpty_iff.mp empty, List.nil_append] at split
  exact split.symm

end

end StepFlow.Script.Literal.Cursor

import Mathlib.Data.List.Induction
import StepFlow.Proofs.Compile.Resolution
import StepFlow.Proofs.Script.Accepted
import StepFlow.Proofs.Script.Sanitized
import StepFlow.Proofs.Text.Pieces

/-!
References in two places. A dotted name is split at its points where it stands alone, and read from
left to right where it stands in a literal. Both give the same expression, but a field that begins
with a digit or a numeric letter is taken in a literal only; one that begins with a digit cannot be
printed behind a point.
-/
namespace StepFlow.Compile
open StepFlow.Flow Script Text
open Script.Literal (ReferenceText ValueText IsReference Stops Blanks readValue)

def isChain : Expr → Bool
  | .ident _ => true
  | .member object _ => isChain object
  | _ => false

def EachField (P : List Char → Prop) : Expr → Prop
  | .member object property => P property.toList ∧ EachField P object
  | _ => True

def Unnumbered (s : List Char) : Prop := ∀ c ∈ s.head?, isNumeric c = false

instance (s : List Char) : Decidable (Unnumbered s) :=
  decidable_of_iff (s.head?.all (fun c => !isNumeric c) = true) (by simp [Unnumbered, Option.all_eq_true])

section
variable {s : List Char} {e base : Expr} {fields : List (List Char)} {P : List Char → Prop}

theorem sanitizeChars_fixed : sanitizeChars s = s ↔ isWord s = true ∧ Unnumbered s := by
  have fixed (c : Char) : blur c = c ↔ isWordChar c = true := by
    unfold blur
    split
    · simp [*]
    · rename_i other
      constructor
      · rintro rfl
        exact absurd (by decide) other
      · exact fun word => absurd word other
  rw [sanitizeChars_eq]
  cases s with
  | nil => simp [led, isWord]
  | cons c s =>
    cases numeric : isNumeric c with
    | true =>
      have longer : (led (c :: s)).map blur ≠ c :: s := by
        intro same
        have lengths := congrArg List.length same
        simp [led, numeric] at lengths
      simp [longer, Unnumbered, numeric]
    | false =>
      have start : isWordStart c = isWordChar c := by
        simp [isWordStart, isWordChar, isAlphanumeric, numeric]
      have others : s.map blur = s ↔ ∀ d ∈ s, isWordChar d = true := by
        have same : s.map blur = s.map id ↔ ∀ d ∈ s, blur d = d := List.map_eq_map_iff
        simpa [fixed] using same
      simp [led, numeric, isWord, Unnumbered, start, fixed, others]

def dotted (base : Expr) (fields : List (List Char)) : Expr :=
  fields.foldl (fun e field => .member e (String.ofList field)) base

theorem eachField_dotted {name : String} :
    EachField P (dotted (.ident name) fields) ↔ ∀ field ∈ fields, P field := by
  induction fields using List.reverseRecOn with
  | nil => simp [dotted, EachField]
  | append_singleton fields field ih =>
    rw [dotted, List.foldl_concat, EachField, ← dotted, ih, String.toList_ofList]
    simp [or_imp, forall_and, and_comm]

theorem eachField_mono {Q : List Char → Prop} (weaker : ∀ field, P field → Q field)
    (each : EachField P e) : EachField Q e := by
  induction e using isChain.induct with
  | case1 | case3 => simp_all [EachField]
  | case2 object property ih => exact ⟨weaker _ each.1, ih each.2⟩

theorem resolveFields_ok_iff {raw : String} {node : Option String} :
    resolveFields raw node base fields = .ok e ↔
      (∀ field ∈ fields, sanitizeChars field = field) ∧ e = dotted base fields := by
  induction fields generalizing base with
  | nil => simp [resolveFields, dotted, eq_comm]
  | cons field fields ih =>
    by_cases clean : sanitizeChars field = field
    · simp [resolveFields, clean, ih, dotted]
    · simp [resolveFields, clean]

theorem referenceText_iff : ReferenceText e s ↔ ∃ name fields, isIdentifier name = true ∧
    (∀ field ∈ fields, field ≠ [] ∧ ∀ c ∈ field, isWordChar c = true) ∧
      s = name.toList ++ fields.flatMap ('.' :: ·) ∧ e = dotted (.ident name) fields := by
  constructor
  · intro written
    induction written with
    | @name name word free =>
      exact ⟨name, [], by simp [isIdentifier, word, free], by simp, by simp, rfl⟩
    | @field object property text of some each ih =>
      obtain ⟨name, fields, identifier, valid, rfl, rfl⟩ := ih
      refine ⟨name, fields ++ [property.toList], identifier, ?_, by simp, ?_⟩
      · intro field member
        rcases List.mem_append.mp member with inside | last
        · exact valid field inside
        · rw [List.mem_singleton.mp last]
          exact ⟨fun none => some (String.toList_inj.mp none), each⟩
      · rw [dotted, dotted, List.foldl_concat, String.ofList_toList]
  · rintro ⟨name, fields, identifier, valid, rfl, rfl⟩
    obtain ⟨word, free⟩ := Bool.and_eq_true_iff.mp identifier
    induction fields using List.reverseRecOn with
    | nil => simpa [dotted] using ReferenceText.name word (by simpa using free)
    | append_singleton fields field ih =>
      obtain ⟨some, each⟩ := valid field (by simp)
      have front := ih fun other member => valid other (List.mem_append_left _ member)
      have longer : ReferenceText (.member _ (String.ofList field)) _ :=
        front.field (by simpa [← String.toList_inj] using some) (by simpa using each)
      rw [dotted, List.foldl_concat, ← dotted]
      simpa using longer

end

section
variable {raw : String} {node : Option String} {e : Expr}

theorem resolveReference_ok_iff : resolveReference raw node = .ok e ↔
    ReferenceText e raw.toList ∧
      EachField (fun field => isWord field = true ∧ Unnumbered field) e := by
  have fixed {fields : List (List Char)} : (∀ field ∈ fields, sanitizeChars field = field) ↔
      ∀ field ∈ fields, isWord field = true ∧ Unnumbered field :=
    forall₂_congr fun _ _ => sanitizeChars_fixed
  constructor
  · intro resolved
    unfold resolveReference at resolved
    split at resolved
    · cases resolved
    · rename_i head fields split
      obtain ⟨name, checked, rest⟩ := bind_eq_ok.mp resolved
      obtain ⟨identifier, rfl⟩ := checkIdentifier_ok_iff.mp checked
      obtain ⟨clean, rfl⟩ := resolveFields_ok_iff.mp rest
      have words := fixed.mp clean
      refine ⟨referenceText_iff.mpr ⟨_, fields, identifier, fun field member => ?_, ?_, rfl⟩,
        eachField_dotted.mpr words⟩
      · obtain ⟨c, t, rfl, _, each⟩ := Literal.isWord_cases (words field member).1
        exact ⟨List.cons_ne_nil c t, each⟩
      · rw [String.toList_ofList]
        exact joined_pieces split
  · rintro ⟨written, named⟩
    obtain ⟨name, fields, identifier, valid, whole, rfl⟩ := referenceText_iff.mp written
    obtain ⟨_, _, _, _, letters⟩ := Literal.isWord_cases (Literal.identifier_isWord identifier)
    have apart : ∀ piece ∈ name.toList :: fields, '.' ∉ piece := by
      have point {piece : List Char} (each : ∀ c ∈ piece, isWordChar c = true) : '.' ∉ piece :=
        fun inside => absurd (each '.' inside) (by decide)
      exact List.forall_mem_cons.mpr ⟨point letters, fun field member => point (valid field member).2⟩
    have clean := fixed.mpr (eachField_dotted.mp named)
    rw [resolveReference, whole, pieces_joined apart]
    refine bind_eq_ok.mpr ⟨name, ?_, resolveFields_ok_iff.mpr ⟨clean, rfl⟩⟩
    rw [String.ofList_toList]
    exact checkIdentifier_ok_iff.mpr ⟨identifier, rfl⟩

theorem resolve_reference (some : raw ≠ "") (type : ValueType) :
    resolve .priorOutput type raw node = .ok e ↔ ReferenceText e raw.toList ∧
      EachField (fun field => isWord field = true ∧ Unnumbered field) e := by
  have nonempty : raw.isEmpty = false := by simpa using some
  rw [← resolveReference_ok_iff, resolve, nonempty]
  rfl

theorem eachField_word {s : List Char} (written : ReferenceText e s) :
    EachField (fun field => isWord field = true ∧ Unnumbered field) e ↔
      EachField Unnumbered e := by
  induction written with
  | name => exact Iff.rfl
  | @field object property text of some each ih =>
    refine and_congr (and_iff_right_of_imp fun unnumbered => ?_) ih
    cases letters : property.toList with
    | nil => exact absurd (String.toList_inj.mp letters) some
    | cons c t =>
      rw [letters] at each unnumbered
      obtain ⟨first, others⟩ := List.forall_mem_cons.mp each
      have start : isWordStart c = true := by
        simpa [isWordStart, isWordChar, isAlphanumeric, unnumbered c rfl] using first
      simpa [isWord, start] using others

/-- A text without blanks is read as a value just when it is a text of that value. -/
theorem parse_tight (tight : ∀ c ∈ raw.toList, isBlank c = false) :
    Literal.parse raw = .ok e ↔ ValueText e raw.toList := by
  rw [Literal.parse_ok_iff]
  constructor
  · rintro ⟨after, read, blank⟩
    obtain ⟨text, whole, written⟩ := (Literal.grammatical _).value _ _ _ read
    have none : after = [] := by
      refine List.eq_nil_iff_forall_not_mem.mpr fun c member => ?_
      have other := tight c (whole ▸ List.mem_append_right text member)
      rw [blank c member] at other
      cases other
    rw [whole, none, List.append_nil]
    exact written
  · intro written
    have read := Literal.valueText_read written [] Literal.ends_nil
    rw [List.append_nil] at read
    exact ⟨[], read, fun _ none => by cases none⟩

theorem reference_isChain {s : List Char} (written : ReferenceText e s) : isChain e = true := by
  induction written with
  | name => rfl
  | field _ _ _ ih => exact ih

theorem plain_of_all {s : List Char}
    (plain : s.all (fun c => !isBlank c && c != '(' && c != ')') = true) :
    ∀ c ∈ s, isBlank c = false ∧ c ≠ '(' ∧ c ≠ ')' := by
  simpa [and_assoc] using plain

/-- Without blanks and parentheses the texts of a chain are those of a reference. -/
theorem chain_valueText (plain : ∀ c ∈ raw.toList, isBlank c = false ∧ c ≠ '(' ∧ c ≠ ')') :
    ValueText e raw.toList ∧ isChain e = true ↔ ReferenceText e raw.toList := by
  constructor
  · rintro ⟨written, chain⟩
    generalize raw.toList = s at written plain
    cases written with
    | blank blank => exact absurd (plain _ List.mem_cons_self).1 (by simp [blank])
    | parens => exact absurd rfl (plain '(' (by simp)).2.1
    | reference written => exact written
    | _ => cases chain
  · exact fun written => ⟨.reference written, reference_isChain written⟩

end

/-- A reference that stands alone is accepted, and is then the expression that its text gives in a
literal, when that is a chain none of whose fields begins with a numeric character; its fields are
then words. So both places agree just on the texts that are not read as a chain with such a field.
Wherever a literal goes on behind the text, it has the same meaning there as by itself. -/
theorem references_agree_iff {raw : String} (some : raw ≠ "")
    (plain : ∀ c ∈ raw.toList, isBlank c = false ∧ c ≠ '(' ∧ c ≠ ')') (type : ValueType)
    (node : Option String) :
    (∀ e, resolve .priorOutput type raw node = .ok e ↔
        Literal.parse raw = .ok e ∧ isChain e = true ∧ EachField Unnumbered e) ∧
      (∀ e, resolve .priorOutput type raw node = .ok e →
        EachField (fun field => isWord field = true) e) ∧
      ((∀ e, resolve .priorOutput type raw node = .ok e ↔
          Literal.parse raw = .ok e ∧ isChain e = true) ↔
        ∀ e, Literal.parse raw = .ok e → isChain e = true → EachField Unnumbered e) ∧
      ∀ e rest, Stops rest →
        (readValue (raw.toList ++ rest) = .ok (e, rest) ↔ Literal.parse raw = .ok e) := by
  have inside (e : Expr) : Literal.parse raw = .ok e ↔ ValueText e raw.toList :=
    parse_tight fun c member => (plain c member).1
  have agree (e : Expr) : resolve .priorOutput type raw node = .ok e ↔
      Literal.parse raw = .ok e ∧ isChain e = true ∧ EachField Unnumbered e := by
    rw [resolve_reference some, inside, ← and_assoc, chain_valueText plain]
    exact and_congr_right fun written => eachField_word written
  refine ⟨agree, fun e resolved => ?_, ?_, fun e rest stops => ?_⟩
  · exact eachField_mono (fun _ => And.left) ((resolve_reference some type).mp resolved).2
  · constructor
    · intro same e parsed chain
      exact ((agree e).mp ((same e).mpr ⟨parsed, chain⟩)).2.2
    · intro unnumbered e
      rw [agree]
      exact ⟨fun ⟨parsed, chain, _⟩ => ⟨parsed, chain⟩,
        fun ⟨parsed, chain⟩ => ⟨parsed, chain, unnumbered e parsed chain⟩⟩
  · rw [inside]
    constructor
    · intro read
      obtain ⟨text, whole, written⟩ := (Literal.grammatical _).value _ _ _ read
      rwa [List.append_cancel_right whole]
    · exact fun written => Literal.valueText_read written rest stops

/-- A field that is a digit: the text is a literal, stands for nothing by itself, and the field is
no word. -/
theorem digitField_differs : "a.1" ≠ "" ∧
    (∀ c ∈ "a.1".toList, isBlank c = false ∧ c ≠ '(' ∧ c ≠ ')') ∧
      Literal.parse "a.1" = .ok (.member (.ident "a") "1") ∧
      isChain (.member (.ident "a") "1") = true ∧ isWord "1".toList = false ∧
      ∀ type node, resolve .priorOutput type "a.1" node ≠ .ok (.member (.ident "a") "1") := by
  have written : ReferenceText (.member (.ident "a") "1") "a.1".toList :=
    .field (.name (by decide +kernel) (by decide)) (by decide)
      (List.all_eq_true.mp (by decide +kernel))
  have plain := plain_of_all (s := "a.1".toList) (by decide)
  refine ⟨by decide, plain, ?_, rfl, by decide +kernel, fun type node resolved => ?_⟩
  · exact (parse_tight fun c member => (plain c member).1).mpr (.reference written)
  · have fields := ((resolve_reference (by decide) type).mp resolved).2
    exact absurd fields.1.1 (by decide +kernel)

theorem reservedField_agrees : "prev.default" ≠ "" ∧
    (∀ c ∈ "prev.default".toList, isBlank c = false ∧ c ≠ '(' ∧ c ≠ ')') ∧
      Literal.parse "prev.default" = .ok (.member (.ident "prev") "default") ∧
      resolve .priorOutput .list "prev.default" none =
        .ok (.member (.ident "prev") "default") := by
  have written : ReferenceText (.member (.ident "prev") "default") "prev.default".toList :=
    .field (.name (by decide +kernel) (by decide)) (by decide)
      (List.all_eq_true.mp (by decide +kernel))
  have plain := plain_of_all (s := "prev.default".toList) (by decide)
  have parsed : Literal.parse "prev.default" = .ok (.member (.ident "prev") "default") :=
    (parse_tight fun c member => (plain c member).1).mpr (.reference written)
  have agree := @references_agree_iff "prev.default" (by decide) plain .list none
  have unnumbered : Unnumbered "default".toList := by decide +kernel
  exact ⟨by decide, plain, parsed, (agree.1 _).mpr ⟨parsed, rfl, unnumbered, trivial⟩⟩

end StepFlow.Compile

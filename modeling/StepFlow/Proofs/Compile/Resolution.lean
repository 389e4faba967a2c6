import StepFlow.Compile.Resolve

/-!
When the value of an input or an operand can be compiled, and to what. A value that resolves has
one meaning, whatever the label of its errors; the error of one that does not carries the label.
-/
namespace StepFlow.Compile
open StepFlow.Flow Script

section
variable {ε α β : Type} {x : Except ε α} {f : α → Except ε β}

theorem bind_eq_ok {b : β} : x >>= f = .ok b ↔ ∃ a, x = .ok a ∧ f a = .ok b := by
  cases x <;> simp [bind, Except.bind]

theorem bind_eq_error {e : ε} :
    x >>= f = .error e ↔ x = .error e ∨ ∃ a, x = .ok a ∧ f a = .error e := by
  cases x <;> simp [bind, Except.bind]

theorem pure_eq_ok {a b : α} : (pure a : Except ε α) = .ok b ↔ a = b := by
  simp [pure, Except.pure]

end

variable {source : Source} {type : ValueType} {value : String} {node node' : Option String}
  {e : Error}

def Resolves (source : Source) (type : ValueType) (value : String) : Prop :=
  ∃ expr, resolve source type value none = .ok expr

/-- The expression for a value; one that does not resolve reads as `undefined`. -/
def meaning (source : Source) (type : ValueType) (value : String) : Expr :=
  (resolve source type value none).toOption.getD .undefined

theorem checkIdentifier_ok_iff {name name' : String} :
    checkIdentifier name node = .ok name' ↔ isIdentifier name = true ∧ name' = name := by
  cases ok : isIdentifier name <;> simp [checkIdentifier, ok, @eq_comm _ name']

theorem checkIdentifier_error_iff {name : String} :
    checkIdentifier name node = .error e ↔
      isIdentifier name = false ∧ e = .invalidIdentifier node name := by
  cases ok : isIdentifier name <;> simp [checkIdentifier, ok, @eq_comm _ e]

theorem checkIdentifier_label {name name' : String} (h : checkIdentifier name node = .ok name') :
    checkIdentifier name node' = .ok name' :=
  checkIdentifier_ok_iff.mpr (checkIdentifier_ok_iff.mp h)

theorem resolveFields_label {raw : String} {base expr : Expr} {fields : List (List Char)}
    (h : resolveFields raw node base fields = .ok expr) :
    resolveFields raw node' base fields = .ok expr := by
  induction fields generalizing base with
  | nil => exact h
  | cons field fields ih =>
    by_cases clean : sanitizeChars field = field
    · simp only [resolveFields, clean, ↓reduceIte] at h ⊢
      exact ih h
    · simp [resolveFields, clean] at h

theorem resolveFields_error {raw : String} {base : Expr} {fields : List (List Char)}
    (h : resolveFields raw node base fields = .error e) : e = .invalidIdentifier node raw := by
  induction fields generalizing base with
  | nil => simp [resolveFields] at h
  | cons field fields ih =>
    by_cases clean : sanitizeChars field = field
    · simp only [resolveFields, clean, ↓reduceIte] at h
      exact ih h
    · simpa [resolveFields, clean, eq_comm] using h

theorem resolveReference_label {expr : Expr} (h : resolveReference value node = .ok expr) :
    resolveReference value node' = .ok expr := by
  unfold resolveReference at h ⊢
  cases parts : Text.pieces '.' value.toList with
  | nil => simp [parts] at h
  | cons head fields =>
    simp only [parts] at h ⊢
    obtain ⟨name, named, rest⟩ := bind_eq_ok.mp h
    exact bind_eq_ok.mpr ⟨name, checkIdentifier_label named, resolveFields_label rest⟩

theorem resolveReference_error (h : resolveReference value node = .error e) : e.node? = node := by
  unfold resolveReference at h
  split at h
  · cases h; rfl
  · rcases bind_eq_error.mp h with named | ⟨name, _, rest⟩
    · rw [(checkIdentifier_error_iff.mp named).2]; rfl
    · rw [resolveFields_error rest]; rfl

theorem resolveLiteral_label {expr : Expr} (h : resolveLiteral type value node = .ok expr) :
    resolveLiteral type value node' = .ok expr := by
  cases type with
  | list | object =>
    by_cases blank : (Text.trim value.toList).isEmpty = true
    · simpa [resolveLiteral, blank] using h
    · cases parsed : Literal.parse value <;> simp_all [resolveLiteral]
  | _ => exact h

theorem resolveLiteral_error (h : resolveLiteral type value node = .error e) : e.node? = node := by
  cases type with
  | list | object =>
    simp only [resolveLiteral] at h
    split at h
    · contradiction
    · split at h
      · contradiction
      · cases h; rfl
  | _ => cases h

/-- What a value of a flow can resolve to, source by source. -/
inductive Resolved (value : String) (node : Option String) : Expr → Prop
  | blank : Resolved value node .undefined
  | literal {expr : Expr} (parsed : Literal.parse value = .ok expr) : Resolved value node expr
  | boolean (b : Bool) : Resolved value node (.bool b)
  | number : Resolved value node (.num (String.ofList (integerPrefix value.toList)))
  | text : Resolved value node (.str value)
  | reference {name : String} {fields : List (List Char)} {expr : Expr}
      (identifier : isIdentifier name = true)
      (rest : resolveFields value node (.ident name) fields = .ok expr) : Resolved value node expr
  | entry (identifier : isIdentifier value = true) :
      Resolved value node (.member (.member (.ident globalName) value) "value")
  | binding (identifier : isIdentifier value = true) : Resolved value node (.ident value)

theorem resolveLiteral_resolved {expr : Expr} (h : resolveLiteral type value node = .ok expr) :
    Resolved value node expr := by
  cases type with
  | list | object =>
    simp only [resolveLiteral] at h
    split at h
    · cases h
      exact .blank
    · split at h
      · rename_i parsed
        cases h
        exact .literal parsed
      · cases h
  | boolean =>
    cases h
    exact .boolean _
  | number =>
    cases h
    exact .number
  | string | unknown =>
    cases h
    exact .text

theorem resolveReference_resolved {expr : Expr} (h : resolveReference value node = .ok expr) :
    Resolved value node expr := by
  unfold resolveReference at h
  split at h
  · cases h
  · obtain ⟨name, checked, rest⟩ := bind_eq_ok.mp h
    obtain ⟨identifier, rfl⟩ := checkIdentifier_ok_iff.mp checked
    exact .reference identifier rest

theorem checkIdentifier_resolved {expr : Expr} {f : String → Expr}
    (h : (checkIdentifier value node >>= fun name => pure (f name)) = .ok expr) :
    isIdentifier value = true ∧ expr = f value := by
  obtain ⟨name, checked, named⟩ := bind_eq_ok.mp h
  obtain ⟨identifier, rfl⟩ := checkIdentifier_ok_iff.mp checked
  exact ⟨identifier, (pure_eq_ok.mp named).symm⟩

theorem resolve_resolved {expr : Expr} (h : resolve source type value node = .ok expr) :
    Resolved value node expr := by
  by_cases empty : value.isEmpty = true
  · cases source with
    | literal => exact resolveLiteral_resolved h
    | _ =>
      simp only [resolve, empty, ↓reduceIte, Except.ok.injEq] at h
      exact h ▸ .blank
  · cases source with
    | literal => exact resolveLiteral_resolved h
    | priorOutput =>
      simp only [resolve, empty, Bool.false_eq_true, ↓reduceIte] at h
      exact resolveReference_resolved h
    | globalEntry =>
      simp only [resolve, empty, Bool.false_eq_true, ↓reduceIte] at h
      obtain ⟨identifier, rfl⟩ := checkIdentifier_resolved h
      exact .entry identifier
    | identifier =>
      simp only [resolve, empty, Bool.false_eq_true, ↓reduceIte] at h
      obtain ⟨identifier, rfl⟩ := checkIdentifier_resolved h
      exact .binding identifier

theorem resolve_label {expr : Expr} (h : resolve source type value node = .ok expr) :
    resolve source type value node' = .ok expr := by
  by_cases empty : value.isEmpty = true
  · cases source with
    | literal => exact resolveLiteral_label h
    | _ => simpa [resolve, empty] using h
  · cases source with
    | literal => exact resolveLiteral_label h
    | priorOutput =>
      simp only [resolve, empty, Bool.false_eq_true, ↓reduceIte] at h ⊢
      exact resolveReference_label h
    | globalEntry | identifier =>
      simp only [resolve, empty, Bool.false_eq_true, ↓reduceIte] at h ⊢
      obtain ⟨name, named, rest⟩ := bind_eq_ok.mp h
      exact bind_eq_ok.mpr ⟨name, checkIdentifier_label named, rest⟩

theorem resolve_error_node (h : resolve source type value node = .error e) : e.node? = node := by
  by_cases empty : value.isEmpty = true
  · cases source with
    | literal => exact resolveLiteral_error h
    | _ => simp [resolve, empty] at h
  · cases source with
    | literal => exact resolveLiteral_error h
    | priorOutput =>
      simp only [resolve, empty, Bool.false_eq_true, ↓reduceIte] at h
      exact resolveReference_error h
    | globalEntry | identifier =>
      simp only [resolve, empty, Bool.false_eq_true, ↓reduceIte] at h
      rcases bind_eq_error.mp h with named | ⟨name, _, rest⟩
      · rw [(checkIdentifier_error_iff.mp named).2]; rfl
      · cases rest

/-- A value is compiled to its meaning if it resolves, and to nothing else. -/
theorem resolve_ok_iff {expr : Expr} :
    resolve source type value node = .ok expr ↔
      Resolves source type value ∧ expr = meaning source type value := by
  constructor
  · intro h
    have unlabelled : resolve source type value none = .ok expr := resolve_label h
    exact ⟨⟨expr, unlabelled⟩, by simp [meaning, unlabelled, Except.toOption]⟩
  · rintro ⟨⟨expr', h⟩, rfl⟩
    have same : meaning source type value = expr' := by simp [meaning, h, Except.toOption]
    rw [same]
    exact resolve_label h

theorem resolve_ne_error (r : Resolves source type value) :
    resolve source type value node ≠ .error e := by
  rw [resolve_ok_iff.mpr ⟨r, rfl⟩]
  simp

end StepFlow.Compile

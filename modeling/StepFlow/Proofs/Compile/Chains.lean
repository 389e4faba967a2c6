import Mathlib.Data.List.Basic
import Mathlib.Data.List.ModifyLast
import StepFlow.Proofs.Compile.Pass
import StepFlow.Proofs.Compile.Scope

/-!
No link of a branch is lost. Whatever calls a merger is given, the statements that it has emitted
and the chain that it holds back are, link by link, the chains that the accepted calls have begun
and gone on with. Emitting a chain drops whatever stands behind a link without a test, so what
carries the argument is that all links held back have one.
-/
namespace StepFlow.Compile
open Script

mutual

/-- The links that a statement is nested of, if it is one of a branch. -/
def spine? : Stmt → Option (List Link)
  | .ifElse test body alternate => (elseSpine? alternate).map (.conditional test body :: ·)
  | .block body => some [.otherwise body]
  | _ => none

def elseSpine? : Option Stmt → Option (List Link)
  | none => some []
  | some stmt => spine? stmt

end

def held : List Link → List (List Link)
  | [] => []
  | l :: links => [l :: links]

namespace Merger

inductive Call where
  | opens (test : Expr) (body : List Stmt)
  | adds (test : Expr) (body : List Stmt)
  | closes (body : List Stmt)
  | flushes

namespace Call

def link? : Call → Option Link
  | opens test body => some (.conditional test body)
  | adds test body => some (.conditional test body)
  | closes body => some (.otherwise body)
  | flushes => none

def goesOn : Call → Bool
  | adds .. => true
  | closes _ => true
  | _ => false

end Call

def step (m : Merger) : Call → Merger × Bool
  | .opens test body => (m.open test body, true)
  | .adds test body =>
    match m.extend? test body with
    | some m' => (m', true)
    | none => (m, false)
  | .closes body =>
    match m.close? body with
    | some m' => (m', true)
    | none => (m, false)
  | .flushes => (m.flush, true)

def after (m : Merger) : List Call → Merger
  | [] => m
  | call :: calls => (m.step call).1.after calls

def accepted (m : Merger) : List Call → List Call
  | [] => []
  | call :: calls =>
    (if (m.step call).2 then [call] else []) ++ (m.step call).1.accepted calls

/-- A call begins a chain behind the others, or goes on with the last one. -/
def joinChain (chains : List (List Link)) : Call → List (List Link)
  | .opens test body => chains ++ [[.conditional test body]]
  | .adds test body => chains.modifyLast (· ++ [.conditional test body])
  | .closes body => chains.modifyLast (· ++ [.otherwise body])
  | .flushes => chains

def chainsOf (calls : List Call) : List (List Link) := calls.foldl joinChain []

/-- What a merger keeps of the calls accepted so far. -/
structure Keeps (m : Merger) (past : List Call) : Prop where
  pending : Pending m.chain
  chains : m.emitted.map spine? ++ (held m.chain).map some = (chainsOf past).map some
  links : (chainsOf past).flatten = past.filterMap Call.link?

end Merger

section
variable {links : List Link}

theorem nest_spine (pending : Pending links) (l : Link) :
    elseSpine? (nest (links ++ [l])) = some (links ++ [l]) := by
  induction links with
  | nil => cases l <;> rfl
  | cons first links ih =>
    have inner := ih fun l member => pending l (List.mem_cons_of_mem first member)
    cases first with
    | conditional test body => simp [nest, elseSpine?, spine?, inner]
    | otherwise body => cases pending (.otherwise body) List.mem_cons_self

theorem nest_pending (pending : Pending links) : elseSpine? (nest links) = some links := by
  rcases List.eq_nil_or_concat links with rfl | ⟨front, l, rfl⟩
  · rfl
  · rw [List.concat_eq_append] at pending ⊢
    exact nest_spine (fun l member => pending l (List.mem_append_left _ member)) l

theorem held_snoc (links : List Link) (l : Link) : held (links ++ [l]) = [links ++ [l]] := by
  cases links <;> rfl

theorem nest_held (whole : elseSpine? (nest links) = some links) :
    (nest links).toList.map spine? = (held links).map some := by
  cases links with
  | nil => rfl
  | cons l links => cases l <;> simpa [nest, held, elseSpine?] using whole

end

namespace Merger

section
variable {m : Merger} {past : List Call} {call : Call}

theorem flush_spines (whole : elseSpine? (nest m.chain) = some m.chain) :
    m.flush.emitted.map spine? = m.emitted.map spine? ++ (held m.chain).map some := by
  rw [flush, List.map_append, nest_held whole]

theorem chainsOf_snoc (past : List Call) (call : Call) :
    chainsOf (past ++ [call]) = joinChain (chainsOf past) call := by
  simp [chainsOf]

theorem links_snoc (past : List Call) (call : Call) : (past ++ [call]).filterMap Call.link? =
    past.filterMap Call.link? ++ call.link?.toList := by
  cases linked : call.link? <;> simp [linked]

theorem Keeps.last (keeps : m.Keeps past) (pending : m.chain ≠ []) : ∃ front,
    chainsOf past = front ++ [m.chain] ∧ m.emitted.map spine? = front.map some := by
  obtain ⟨first, links, shape⟩ := List.exists_cons_of_ne_nil pending
  have chains := keeps.chains
  rw [shape, held, List.map_singleton, ← shape] at chains
  obtain ⟨front, last, split, emitted, single⟩ := List.append_eq_map_iff.mp chains
  obtain ⟨chain, rfl, same⟩ := List.map_eq_singleton_iff.mp single
  cases same
  exact ⟨front, split, emitted.symm⟩

theorem keeps_flush (keeps : m.Keeps past) : m.flush.Keeps (past ++ [.flushes]) where
  pending := pending_nil
  chains := by
    rw [chainsOf_snoc, joinChain, flush_spines (nest_pending keeps.pending), ← keeps.chains]
    exact List.append_nil _
  links := by
    rw [chainsOf_snoc, joinChain, links_snoc, keeps.links]
    exact (List.append_nil _).symm

theorem keeps_open (keeps : m.Keeps past) (test : Expr) (body : List Stmt) :
    (m.open test body).Keeps (past ++ [.opens test body]) where
  pending := pending_link pending_nil test body
  chains := by
    have spines := flush_spines (nest_pending keeps.pending)
    rw [chainsOf_snoc, joinChain, List.map_append, ← keeps.chains, ← spines]
    rfl
  links := by
    rw [chainsOf_snoc, joinChain, links_snoc, List.flatten_append, keeps.links]
    rfl

theorem joined_last (keeps : m.Keeps past) (pending : m.chain ≠ []) (l : Link) : ∃ front,
    (chainsOf past).modifyLast (· ++ [l]) = front ++ [m.chain ++ [l]] ∧
      m.emitted.map spine? = front.map some ∧
      (front ++ [m.chain ++ [l]]).flatten = past.filterMap Call.link? ++ [l] := by
  obtain ⟨front, chains, emitted⟩ := keeps.last pending
  refine ⟨front, by rw [chains, List.modifyLast_concat], emitted, ?_⟩
  rw [← keeps.links, chains]
  simp

theorem keeps_extend (keeps : m.Keeps past) (pending : m.chain ≠ []) (test : Expr)
    (body : List Stmt) :
    (m.link (.conditional test body)).Keeps (past ++ [.adds test body]) := by
  obtain ⟨front, chains, emitted, links⟩ := joined_last keeps pending (.conditional test body)
  refine ⟨pending_link keeps.pending test body, ?_, ?_⟩
  · rw [chainsOf_snoc, joinChain, chains, List.map_append, ← emitted, link, held_snoc]
  · rw [chainsOf_snoc, joinChain, chains, links, links_snoc]
    rfl

theorem keeps_close (keeps : m.Keeps past) (pending : m.chain ≠ []) (body : List Stmt) :
    (m.link (.otherwise body)).flush.Keeps (past ++ [.closes body]) := by
  obtain ⟨front, chains, emitted, links⟩ := joined_last keeps pending (.otherwise body)
  refine ⟨pending_nil, ?_, ?_⟩
  · have spines := flush_spines (m := m.link (.otherwise body)) (nest_spine keeps.pending _)
    rw [chainsOf_snoc, joinChain, chains, List.map_append, ← emitted, spines, link, held_snoc]
    exact List.append_nil _
  · rw [chainsOf_snoc, joinChain, chains, links, links_snoc]
    rfl

theorem rejected_iff : (m.step call).2 = false ↔ call.goesOn = true ∧ m.chain = [] := by
  cases call with
  | opens test body => simp [step, Call.goesOn]
  | flushes => simp [step, Call.goesOn]
  | adds test body =>
    rw [← @extend?_eq_none_iff m test body, step]
    split <;> simp [*, Call.goesOn]
  | closes body =>
    rw [← @close?_eq_none_iff m body, step]
    split <;> simp [*, Call.goesOn]

theorem rejected_stays (rejected : (m.step call).2 = false) : (m.step call).1 = m := by
  obtain ⟨goesOn, closed⟩ := rejected_iff.mp rejected
  cases call with
  | opens test body => cases goesOn
  | flushes => cases goesOn
  | adds test body => rw [step, extend?_eq_none_iff.mpr closed]
  | closes body => rw [step, close?_eq_none_iff.mpr closed]

/-- What an accepted call makes of a merger keeps that call too. -/
theorem keeps_step (keeps : m.Keeps past) (taken : (m.step call).2 = true) :
    (m.step call).1.Keeps (past ++ [call]) := by
  cases call with
  | opens test body => exact keeps_open keeps test body
  | flushes => exact keeps_flush keeps
  | adds test body =>
    simp only [step] at taken ⊢
    split at taken
    · rename_i m' linked
      obtain ⟨pending, rfl⟩ := extend?_eq_some_iff.mp linked
      exact keeps_extend keeps pending test body
    · cases taken
  | closes body =>
    simp only [step] at taken ⊢
    split at taken
    · rename_i m' closed
      obtain ⟨pending, rfl⟩ := close?_eq_some_iff.mp closed
      exact keeps_close keeps pending body
    · cases taken

theorem keeps_after (calls : List Call) (keeps : m.Keeps past) :
    (m.after calls).Keeps (past ++ m.accepted calls) := by
  induction calls generalizing m past with
  | nil => simpa [after, accepted] using keeps
  | cons call calls ih =>
    rw [after, accepted, ← List.append_assoc]
    cases taken : (m.step call).2 with
    | true => simpa using ih (keeps_step keeps taken)
    | false =>
      rw [rejected_stays taken]
      simpa using ih keeps

end

theorem keeps_empty : empty.Keeps [] := ⟨pending_nil, rfl, rfl⟩

/-- After any calls the emitted statements and the chain held back are the links of the accepted
calls, one statement for each chain. A call is rejected when there is no chain to go on with, and
then it changes nothing. -/
theorem links_kept (calls : List Call) :
    Pending (empty.after calls).chain ∧
    (∃ spines, (empty.after calls).emitted.map spine? = spines.map some ∧
      spines.flatten ++ (empty.after calls).chain =
        (empty.accepted calls).filterMap Call.link? ∧
      spines ++ held (empty.after calls).chain = chainsOf (empty.accepted calls)) ∧
    ∀ call, (((empty.after calls).step call).2 = false ↔
        call.goesOn = true ∧ (empty.after calls).chain = []) ∧
      (((empty.after calls).step call).2 = false →
        ((empty.after calls).step call).1 = empty.after calls) := by
  have keeps : (empty.after calls).Keeps (empty.accepted calls) := keeps_after calls keeps_empty
  refine ⟨keeps.pending, ?_, fun call => ⟨rejected_iff, rejected_stays⟩⟩
  obtain ⟨spines, last, chains, emitted, single⟩ := List.append_eq_map_iff.mp keeps.chains
  have last : last = held (empty.after calls).chain :=
    List.map_injective_iff.mpr (fun _ _ => Option.some.inj) single
  subst last
  have flat : (held (empty.after calls).chain).flatten = (empty.after calls).chain := by
    cases (empty.after calls).chain <;> simp [held]
  refine ⟨spines, emitted.symm, ?_, chains.symm⟩
  rw [← keeps.links, chains, List.flatten_append, flat]

end Merger

end StepFlow.Compile

import LuaGlue.Proofs.Attachment.Requested

/-!
Native wrappers that wait for their classes.

A free function is declared anywhere, before or after the class it is for, so a wrapper waits until all
declarations are known. The second pass lets exactly those wrappers wait that are used for an attachment
(`mem_waiting_registerAll`).
-/

namespace LuaGlue.Selection

open Registry

/-- The attachments whose wrappers have been declared. -/
def waiting (s : Selection) : List Attachment :=
  s.redirectors.map (fun p => p.request.attachment p.wrapper)
    ++ s.metamethods.map fun p => p.request.attachment p.wrapper

/-- A wrapper that is used for an attachment waits. -/
theorem mem_waiting_registerFunction (s : Selection) (f : DeclaredFunction) {a : Attachment} :
    a ∈ (s.registerFunction f).waiting ↔ a ∈ s.waiting ∨ s.requests.attachment? f.qualified = some a := by
  have hbound : ∀ request, (s.addFunction f request).waiting = s.waiting := by
    intro request
    obtain ⟨functions, signatures, states, skipped, notices, heq⟩ := addFunction_rest s f request
    rw [heq]
    rfl
  unfold registerFunction
  simp only
  rw [Requests.attachment?, Requests.table?, Requests.table?, if_pos rfl, if_neg Bool.false_ne_true]
  cases s.requests.metamethods.get? f.qualified with
  | some request => simp [waiting, or_assoc, eq_comm]
  | none =>
    cases s.requests.redirectors.get? f.qualified with
    | some request => simp [waiting, or_assoc, or_comm, eq_comm]
    | none =>
      simp only [Option.map_none, Option.or_none, reduceCtorEq, or_false]
      split
      · rfl
      · split
        · rw [hbound]
        · split
          · rw [hbound]
          · rfl

theorem waiting_of_aside {s t : Selection} (h : Aside s t) : t.waiting = s.waiting := by
  rw [waiting, waiting, h.redirectors, h.metamethods]

theorem mem_waiting_register (s : Selection) (d : Declaration) {a : Attachment} :
    a ∈ (s.register d).1.waiting
      ↔ a ∈ s.waiting ∨ ∃ f, d = .function f ∧ f.owner = none ∧ s.requests.attachment? f.qualified = some a := by
  by_cases haside : ∀ f, d = .function f → f.owner.isSome = true
  · rw [waiting_of_aside (aside_register s haside)]
    refine (or_iff_left ?_).symm
    rintro ⟨f, heq, hfree, -⟩
    have howner := haside f heq
    rw [hfree] at howner
    cases howner
  · push Not at haside
    obtain ⟨f, rfl, hfree⟩ := haside
    rw [register]
    simp only
    rw [if_neg hfree, mem_waiting_registerFunction]
    simp only [Declaration.function.injEq, exists_eq_left', show f.owner = none by simpa using hfree, true_and]

/-- After the second pass those attachments wait that were waiting before it, and those that a declared wrapper is
used for. -/
theorem mem_waiting_registerAll (s : Selection) {stream : List (Except DeclarationError Declaration)}
    (hends : (s.registerAll stream).2 = none) {a : Attachment} :
    a ∈ (s.registerAll stream).1.waiting
      ↔ a ∈ s.waiting ∨ ∃ f, .ok (.function f) ∈ stream ∧ f.owner = none
        ∧ s.requests.attachment? f.qualified = some a := by
  induction stream generalizing s with
  | nil => simp [registerAll]
  | cons item rest ih =>
    cases item with
    | error e => cases hends
    | ok d =>
      have hfirst := @mem_waiting_register s d a
      have hlearned := learned_register s d
      rw [registerAll] at hends ⊢
      split at hends
      · next t heq =>
        rw [heq] at hfirst hlearned
        rw [ih t hends, hfirst, hlearned.requests, or_assoc]
        refine or_congr_right ?_
        simp only [List.mem_cons, Except.ok.injEq, or_and_right, exists_or, eq_comm]
      · cases hends

end LuaGlue.Selection

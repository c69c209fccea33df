import LuaGlue.Proofs.Overload.Conditions
import LuaGlue.Proofs.Selection.Stock

/-!
Which overloads a function takes, of those that it is offered one after another.

A call is dispatched by the types of its arguments, so two overloads of the same arity have to differ somewhere
in a way that the arguments show. Types do not differ in this way if they are `Interchangeable`: both are text,
or both are written with the same name. Each offer is compared with all that has been taken before, and taken in
turn if nothing there matches it (`taken`):

    offers    Print(const char*)    Print(std::string)    Print(int)    Print()
    taken     Print(const char*)      interchangeable     Print(int)    not the first

The relation is symmetric, so it does not matter that only the later one of two overloads was ever compared with
the other (`Distinct`, kept by each `offer`).
-/

namespace LuaGlue

/-! ### Types and overloads that match -/

/-- Both types are text, or both have the same name as written. -/
def CxxType.Interchangeable (a b : CxxType) : Prop :=
  a.isText = true ∧ b.isText = true ∨ ∃ name, a.qualifiedName = .ok name ∧ b.qualifiedName = .ok name

theorem CxxType.Interchangeable.symm {a b : CxxType} (h : a.Interchangeable b) : b.Interchangeable a := by
  obtain ⟨ha, hb⟩ | ⟨name, ha, hb⟩ := h
  · exact .inl ⟨hb, ha⟩
  · exact .inr ⟨name, hb, ha⟩

theorem CxxType.equivalent_iff {a b : CxxType} : a.equivalent b = true ↔ a.Interchangeable b := by
  rw [equivalent, Interchangeable, Bool.or_eq_true, Bool.and_eq_true]
  refine or_congr_right ?_
  cases a.qualifiedName with
  | error e => simp
  | ok x =>
    cases b.qualifiedName with
    | error e => simp
    | ok y =>
      rw [beq_iff_eq]
      exact ⟨fun heq => ⟨x, rfl, congrArg Except.ok heq.symm⟩,
        fun ⟨_, hx, hy⟩ => (Except.ok.inj hx).trans (Except.ok.inj hy).symm⟩

/-- As many parameters, with interchangeable types at each position. -/
def Overload.Interchangeable (a b : Overload) : Prop :=
  List.Forall₂ (fun p q => p.type.Interchangeable q.type) a b

theorem Overload.Interchangeable.symm {a b : Overload} (h : a.Interchangeable b) : b.Interchangeable a :=
  List.Forall₂.imp (fun _ _ hab => CxxType.Interchangeable.symm hab) h.flip

theorem Overload.equivalent_iff {a b : Overload} : a.equivalent b = true ↔ a.Interchangeable b := by
  rw [equivalent, Interchangeable, Bool.and_eq_true, beq_iff_eq, List.all_eq_true, List.forall₂_iff_zip]
  simp only [CxxType.equivalent_iff, Prod.forall]

namespace BoundFunction

variable {f : BoundFunction}

/-! ### One offer -/

/-- An overload comes too late without parameters, or matches one that is there. -/
theorem covers_iff {o : Overload} :
    f.covers o = true ↔ (o = [] ∧ f.overloads ≠ []) ∨ ∃ p ∈ f.overloads, p.Interchangeable o := by
  simp [covers, Overload.equivalent_iff]

theorem addOverload_eq_error_iff {o : Overload} :
    f.addOverload o = .error .duplicateOverload ↔ f.covers o = true := by
  rw [addOverload]
  split <;> simp [*]

theorem offer_of_refused {o : Overload} (h : f.addOverload o = .error .duplicateOverload) : f.offer o = f := by
  rw [offer, h]

theorem addOverload_of_not_refused {o : Overload} (h : f.addOverload o ≠ .error .duplicateOverload) :
    f.addOverload o = .ok { f with overloads := f.overloads ++ [o] } := by
  rw [ne_eq, addOverload_eq_error_iff] at h
  rw [addOverload, if_neg h]

/-- No two overloads match. -/
def Distinct (f : BoundFunction) : Prop := f.overloads.Pairwise fun a b => ¬ a.Interchangeable b

/-- What has been taken stays distinct, whatever is offered. -/
theorem Distinct.offer (h : f.Distinct) (o : Overload) : (f.offer o).Distinct := by
  by_cases hrefused : f.addOverload o = .error .duplicateOverload
  · rwa [offer_of_refused hrefused]
  · have hnew : ¬ f.covers o = true := mt addOverload_eq_error_iff.2 hrefused
    rw [covers_iff, not_or] at hnew
    rw [BoundFunction.offer, addOverload_of_not_refused hrefused]
    refine List.pairwise_append.2 ⟨h, List.pairwise_singleton _ _, fun p hp q hq hmatch => ?_⟩
    rw [List.mem_singleton.1 hq] at hmatch
    exact hnew.2 ⟨p, hp, hmatch⟩

/-! ### Offers one after another -/

/-- The overloads that are taken, of those that are offered in this order. -/
def taken (f : BoundFunction) : List Overload → List Overload
  | [] => []
  | o :: rest =>
    match f.addOverload o with
    | .ok g => o :: g.taken rest
    | .error _ => f.taken rest

theorem taken_sublist (f : BoundFunction) (offered : List Overload) : (f.taken offered).Sublist offered := by
  induction offered generalizing f with
  | nil => exact List.Sublist.slnil
  | cons o rest ih =>
    rw [taken]
    split
    · next g _ => exact (ih g).cons_cons o
    · exact (ih f).cons o

/-- Offers change nothing but the overloads, and those grow at the end by what is taken. -/
theorem offerAll_eq (f : BoundFunction) (offered : List Overload) :
    f.offerAll offered = { f with overloads := f.overloads ++ f.taken offered } := by
  rw [offerAll]
  induction offered generalizing f with
  | nil => simp [taken]
  | cons o rest ih =>
    rw [List.foldl_cons, ih, taken, offer]
    cases hadd : f.addOverload o with
    | error e => rfl
    | ok g =>
      rw [addOverload_eq_ok hadd]
      simp

theorem Distinct.offerAll (h : f.Distinct) (offered : List Overload) : (f.offerAll offered).Distinct := by
  rw [BoundFunction.offerAll]
  induction offered generalizing f with
  | nil => exact h
  | cons o rest ih => exact ih (h.offer o)

/-- Two positions of a function with distinct overloads hold overloads that do not match, whichever comes first. -/
theorem Distinct.not_interchangeable (h : f.Distinct) {x y : Nat} {a b : Overload} (hne : x ≠ y)
    (ha : f.overloads[x]? = some a) (hb : f.overloads[y]? = some b) : ¬ a.Interchangeable b := by
  obtain ⟨hx, rfl⟩ := List.getElem?_eq_some_iff.1 ha
  obtain ⟨hy, rfl⟩ := List.getElem?_eq_some_iff.1 hb
  rcases Nat.lt_or_gt_of_ne hne with hlt | hlt
  · exact List.pairwise_iff_getElem.1 h x y hx hy hlt
  · exact fun hmatch => List.pairwise_iff_getElem.1 h y x hy hx hlt hmatch.symm

/-- CORRECT: a function that starts without overloads has those that were taken, in the order of the offers, and is
the same otherwise. No two of them match, and one without parameters can only be the first. An offer is refused
exactly if it has no parameters while there are overloads, or matches one that is there; then the function stays as
it is, and else the overload goes to the end. -/
theorem overloads_distinct {fresh : BoundFunction} (hfresh : fresh.overloads = []) (offered : List Overload) :
    let f := fresh.offerAll offered
    f = { fresh with overloads := fresh.taken offered }
      ∧ (fresh.taken offered).Sublist offered
      ∧ (∀ (x y : Nat) (a b : Overload), x ≠ y → f.overloads[x]? = some a → f.overloads[y]? = some b →
        ¬ a.Interchangeable b)
      ∧ (∀ x, f.overloads[x]? = some [] → x = 0)
      ∧ ∀ (before : List Overload) (o : Overload),
        let g := fresh.offerAll before
        (g.addOverload o = .error .duplicateOverload
            ↔ (o = [] ∧ g.overloads ≠ []) ∨ ∃ p ∈ g.overloads, p.Interchangeable o)
          ∧ (g.addOverload o = .error .duplicateOverload → fresh.offerAll (before ++ [o]) = g)
          ∧ (g.addOverload o ≠ .error .duplicateOverload →
            fresh.offerAll (before ++ [o]) = { g with overloads := g.overloads ++ [o] }) := by
  intro f
  have hdistinct : fresh.Distinct := by
    rw [Distinct, hfresh]
    exact List.Pairwise.nil
  have hfronted : fresh.Fronted := fun x hx => by simp [hfresh] at hx
  refine ⟨?_, taken_sublist fresh offered, fun x y a b => (hdistinct.offerAll offered).not_interchangeable,
    fronted_offerAll hfronted offered, fun before o => ?_⟩
  · rw [show f = _ from offerAll_eq fresh offered, hfresh, List.nil_append]
  · intro g
    have hnext : fresh.offerAll (before ++ [o]) = g.offer o := by simp [offerAll, g]
    refine ⟨addOverload_eq_error_iff.trans covers_iff, fun hrefused => ?_, fun haccepted => ?_⟩
    · rw [hnext, offer_of_refused hrefused]
    · rw [hnext, offer, addOverload_of_not_refused haccepted]

/-- A printing function before it has overloads. -/
def blankPrint : BoundFunction := new "Print" "" .plainVoid

/-- What it is offered. -/
def prints : List Overload :=
  [[⟨"line", .text .narrowPointer { isPointer := true, isConst := true }⟩], [⟨"line", .text .narrow {}⟩],
    [⟨"number", .numeric .int32 {}⟩], []]

/-- Only the text as characters and the number are taken. -/
theorem prints_distinct : blankPrint.overloads = []
    ∧ (blankPrint.taken prints).map (·.map Param.name) = [["line"], ["number"]]
    ∧ blankPrint.offerAll prints = { blankPrint with overloads := blankPrint.taken prints }
    ∧ ∀ (x y : Nat) (a b : Overload), x ≠ y → (blankPrint.offerAll prints).overloads[x]? = some a →
      (blankPrint.offerAll prints).overloads[y]? = some b → ¬ a.Interchangeable b := by
  have hempty : blankPrint.overloads = [] := rfl
  obtain ⟨htaken, -, hdistinct, -⟩ := overloads_distinct hempty prints
  exact ⟨hempty, by decide +kernel, htaken, hdistinct⟩

end BoundFunction

end LuaGlue

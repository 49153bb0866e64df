import Mathlib.Algebra.BigOperators.Group.Finset.Basic
import AlgoSystem.General.Sorted
import AlgoSystem.MarketData.OptionChain
import AlgoSystem.MarketData.Symbols

namespace AlgoSystem.Proof.MarketData
open AlgoSystem.MarketData General List

variable {master : InstrumentMaster} {underlying : String} {expiry : Int}
variable {strike : ℚ} {c : Contract} {strikes : List ℚ}

theorem mem_listExpiries :
    expiry ∈ master.listExpiries underlying ↔
      ∃ c ∈ master.contracts, c.underlying = underlying ∧ c.expiry = expiry := by
  simp [InstrumentMaster.listExpiries, mem_insertionSort, and_assoc]

theorem mem_listStrikes :
    strike ∈ master.listStrikes underlying expiry ↔
      ∃ c ∈ master.contracts, c.underlying = underlying ∧ c.expiry = expiry ∧
        c.strike = strike := by
  simp [InstrumentMaster.listStrikes, mem_insertionSort, and_assoc]

theorem resolve_eq_some {optionType : OptionType}
    (resolved : master.resolve underlying expiry strike optionType = some c) :
    c ∈ master.contracts ∧ c.underlying = underlying ∧ c.expiry = expiry ∧ c.strike = strike ∧
      c.optionType = optionType := by
  have mem := mem_of_getLast? resolved
  simpa using mem

theorem resolve_terms {q : OptionTerms}
    (resolved : master.resolve q.1 q.2.1 q.2.2.1 q.2.2.2 = some c) : c.terms = q := by
  obtain ⟨-, own, date, strike, optionType⟩ := resolve_eq_some resolved
  rw [Contract.terms, own, date, strike, optionType]

theorem listStrikes_ne_nil (listed : expiry ∈ master.listExpiries underlying) :
    master.listStrikes underlying expiry ≠ [] := by
  obtain ⟨c, member, own, date⟩ := mem_listExpiries.mp listed
  exact ne_nil_of_mem (mem_listStrikes.mpr ⟨c, member, own, date, rfl⟩)

theorem listStrikes_pairwise : (master.listStrikes underlying expiry).Pairwise (· ≤ ·) :=
  pairwise_insertionSort _ _

theorem listStrikes_nodup : (master.listStrikes underlying expiry).Nodup :=
  (perm_insertionSort _ _).nodup_iff.mpr (nodup_dedup _)

structure IsAtm (strikes : List ℚ) (spot atm : ℚ) : Prop where
  listed : atm ∈ strikes
  nearest : ∀ s ∈ strikes, |atm - spot| ≤ |s - spot|
  lower : ∀ s ∈ strikes, |s - spot| = |atm - spot| → atm ≤ s

theorem isAtm_of_nearestStrike {spot atm : ℚ} (sorted : strikes.Pairwise (· ≤ ·))
    (found : nearestStrike strikes spot = some atm) : IsAtm strikes spot atm where
  listed := argmin_mem found
  nearest _ member := le_of_mem_argmin (f := fun s => |s - spot|) member found
  lower _ member same := le_of_argmin_eq sorted found member same

theorem exists_nearestStrike (nonempty : strikes ≠ []) (spot : ℚ) :
    ∃ atm, nearestStrike strikes spot = some atm := by
  apply Option.ne_none_iff_exists'.mp
  intro nothing
  exact nonempty (argmin_eq_none.mp nothing)

theorem length_dedup_eq_sum {α β : Type} [DecidableEq α] [DecidableEq β] (l : List (α × β)) :
    l.dedup.length = ((l.map Prod.fst).dedup.map fun a =>
      ((l.filter fun p => p.1 = a).map Prod.snd).dedup.length).sum := by
  have firsts : (l.map Prod.fst).dedup.toFinset = l.toFinset.image Prod.fst := by
    ext a
    simp
  rw [← sum_toFinset _ (nodup_dedup _), ← card_toFinset,
    Finset.card_eq_sum_card_image Prod.fst, firsts]
  apply Finset.sum_congr rfl
  intro a _
  have fibre : {p ∈ l.toFinset | p.1 = a} =
      ((l.filter fun p => p.1 = a).map Prod.snd).toFinset.image (Prod.mk a) := by
    ext ⟨b, c⟩
    simp only [Finset.mem_filter, mem_toFinset, Finset.mem_image, mem_map, mem_filter]
    grind
  rw [fibre, Finset.card_image_of_injective _ (Prod.mk_right_injective a), card_toFinset]

theorem length_dedup_map_eq {α β γ : Type} [DecidableEq β] [DecidableEq γ] {f : α → β} {g : α → γ}
    {l : List α} (same : ∀ x ∈ l, ∀ y ∈ l, f x = f y ↔ g x = g y) :
    (l.map f).dedup.length = (l.map g).dedup.length := by
  induction l with
  | nil => rfl
  | cons a l ih =>
    have rest := ih fun x hx y hy =>
      same x (mem_cons_of_mem a hx) y (mem_cons_of_mem a hy)
    have listed : f a ∈ l.map f ↔ g a ∈ l.map g := by
      simp only [mem_map]
      apply exists_congr
      intro x
      apply and_congr_right
      intro mem
      exact same x (mem_cons_of_mem a mem) a mem_cons_self
    by_cases old : f a ∈ l.map f
    · rw [map_cons, map_cons, dedup_cons_of_mem old, dedup_cons_of_mem (listed.mp old), rest]
    · rw [map_cons, map_cons, dedup_cons_of_notMem old,
        dedup_cons_of_notMem (listed.not.mp old), length_cons, length_cons, rest]

def written (formats : Formats) (q : OptionTerms) : String :=
  makeOptionSymbol formats q.1 q.2.1 q.2.2.1 q.2.2.2

def Unambiguous (formats : Formats) (asked : OptionTerms → Prop) (master : InstrumentMaster) :
    Prop :=
  ∀ c ∈ master.contracts, ∀ q, asked q → written formats q = c.internalSymbol → q = c.terms

structure Coherent (formats : Formats) (asked : OptionTerms → Prop) (master : InstrumentMaster) :
    Prop where
  agree : ∀ q, asked q →
    master.resolve q.1 q.2.1 q.2.2.1 q.2.2.2 = master.get (written formats q)
  total : master.count =
    ((master.contracts.map Contract.underlying).dedup.map master.countOf).sum
  loaded : (master.contracts.map Contract.terms).Nodup → master.count = master.contracts.length
  expiries : ∀ u, (master.listExpiries u).Pairwise (· < ·) ∧ ∀ expiry,
    expiry ∈ master.listExpiries u ↔
      ∃ c ∈ master.contracts, c.underlying = u ∧ c.expiry = expiry
  strikes : ∀ u expiry, (master.listStrikes u expiry).Pairwise (· < ·) ∧ ∀ strike,
    strike ∈ master.listStrikes u expiry ↔
      ∃ c ∈ master.contracts, c.underlying = u ∧ c.expiry = expiry ∧ c.strike = strike

section Indexes
variable {formats : Formats} {normal : String → String} {rows : List OptionRow}

theorem mem_load
    (member : c ∈ (InstrumentMaster.load (rows.map (·.instrument formats normal))).contracts) :
    c.internalSymbol = written formats c.terms := by
  obtain ⟨inst, mem, loaded⟩ := mem_filterMap.mp member
  obtain ⟨row, _, rfl⟩ := mem_map.mp mem
  cases loaded
  rfl

theorem countOf_sum :
    (master.contracts.map Contract.terms).dedup.length =
      ((master.contracts.map Contract.underlying).dedup.map master.countOf).sum := by
  rw [length_dedup_eq_sum, map_map]
  congr 2
  funext u
  rw [InstrumentMaster.countOf, filter_map, map_map]
  rfl

/-- The two indexes of the master are coherent exactly when no other terms that are asked for are
written with the symbol of a loaded contract. -/
theorem coherent_iff_unambiguous {asked : OptionTerms → Prop}
    (listed : ∀ c ∈ (InstrumentMaster.load (rows.map (·.instrument formats normal))).contracts,
      asked c.terms) :
    Coherent formats asked (.load (rows.map (·.instrument formats normal))) ↔
      Unambiguous formats asked (.load (rows.map (·.instrument formats normal))) := by
  generalize loads : InstrumentMaster.load (rows.map (·.instrument formats normal)) = master at *
  have own {c : Contract} (member : c ∈ master.contracts) := mem_load (loads ▸ member)
  constructor
  · intro coherent c member q asks same
    -- the contract found under the shared symbol has both terms
    obtain ⟨d, found⟩ : ∃ d, master.get c.internalSymbol = some d := by
      apply Option.ne_none_iff_exists'.mp
      intro none
      have nothing := getLast?_eq_none_iff.mp none
      exact not_mem_nil (nothing ▸ mem_filter.mpr ⟨member, by simp⟩)
    have first := coherent.agree q asks
    have second := coherent.agree c.terms (listed c member)
    rw [same, found] at first
    rw [← own member, found] at second
    exact (resolve_terms first).symm.trans (resolve_terms second)
  · intro unambiguous
    have alike {c : Contract} (member : c ∈ master.contracts) {q : OptionTerms} (asks : asked q) :
        c.internalSymbol = written formats q ↔ c.terms = q := by
      constructor
      · intro same
        exact (unambiguous c member q asks same.symm).symm
      · rintro rfl
        exact own member
    have counted : master.count = (master.contracts.map Contract.terms).dedup.length := by
      apply length_dedup_map_eq
      intro c mem d member
      rw [own member]
      exact alike mem (listed d member)
    refine ⟨fun q asks => ?_, counted.trans countOf_sum, fun distinct => ?_,
      fun u => ⟨dedup_insertionSort_lt _, fun _ => mem_listExpiries⟩,
      fun u expiry => ⟨dedup_insertionSort_lt _, fun _ => mem_listStrikes⟩⟩
    · rw [InstrumentMaster.resolve, InstrumentMaster.get]
      congr 1
      apply filter_congr
      intro c member
      rw [decide_eq_decide, alike member asks]
      simp [Contract.terms, Prod.ext_iff]
    · rw [counted, distinct.dedup, length_map]

def januaryCall (strike : ℚ) : OptionRow := ⟨"NIFTY", 20482, strike, .ce, .nfo, none⟩

def januaryFormats : Formats := strikeFormats (fun _ => true) fun _ => "2026-01-29"

def januaryCalls (strikes : List ℚ) : InstrumentMaster :=
  .load ((strikes.map januaryCall).map (·.instrument januaryFormats id))

theorem hundred_apart_coherent :
    Coherent januaryFormats
      (fun q => q ∈ [("NIFTY", 20482, 25100, .ce), ("NIFTY", 20482, 25200, .ce)])
      (januaryCalls [25100, 25200]) := by
  refine (@coherent_iff_unambiguous _ id ([25100, 25200].map januaryCall) _ ?_).mpr ?_
  · decide +kernel
  · unfold Unambiguous
    decide +kernel

theorem close_strikes_disagree :
    let master := januaryCalls [2511251 / 100, 25112 + 1 / 2]
    master.resolve "NIFTY" 20482 (2511251 / 100) .ce ≠
        master.get (written januaryFormats ("NIFTY", 20482, 2511251 / 100, .ce)) ∧
      master.count = 1 ∧ master.countOf "NIFTY" = 2 := by
  decide +kernel

end Indexes

end AlgoSystem.Proof.MarketData

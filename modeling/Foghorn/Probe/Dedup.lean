import Foghorn.Probe.Scheduler

/-!
# The most informative observation

Of the observations of one address `dedupByAddress` keeps the first among those of the highest
rank, at the place where the address first appeared. That is a statement about the whole list,
while the loop compares each observation with the one kept so far.
-/

namespace Foghorn.Probe

open Foghorn.Std Foghorn.Core

section Top

/-- No observation of the same address outranks this one. -/
def isTop (raw : List RawObservation) (obs : RawObservation) : Bool :=
  raw.all fun other => other.indexerAddress = obs.indexerAddress → rank other ≤ rank obs

/-- The observations of an address that have its highest rank, in order. -/
def topOf (raw : List RawObservation) (address : String) : List RawObservation :=
  raw.filter fun obs => obs.indexerAddress = address && isTop raw obs

variable {raw raw' : List RawObservation} {obs : RawObservation} {address : String}

/-- An answer is on top when no answer of its indexer ranks higher. -/
theorem isTop_iff : isTop raw obs ↔
    ∀ other ∈ raw, other.indexerAddress = obs.indexerAddress → rank other ≤ rank obs := by
  rw [isTop, List.all_eq_true]
  simp only [decide_eq_true_eq]

private theorem mem_topOf : obs ∈ topOf raw address ↔ obs ∈ raw ∧ obs.indexerAddress = address ∧
    ∀ other ∈ raw, other.indexerAddress = address → rank other ≤ rank obs := by
  rw [topOf, List.mem_filter, Bool.and_eq_true, decide_eq_true_iff, isTop_iff]
  refine and_congr_right fun _ => ?_
  constructor
  · rintro ⟨rfl, highest⟩
    exact ⟨rfl, highest⟩
  · rintro ⟨rfl, highest⟩
    exact ⟨rfl, highest⟩

/-- One more observation is at the top alone, or after those that were, or not at all. -/
theorem topOf_concat (raw : List RawObservation) (obs : RawObservation) (address : String) :
    topOf (raw ++ [obs]) address =
      if obs.indexerAddress = address then
        (topOf raw address).filter (fun kept => rank obs ≤ rank kept) ++
          if isTop raw obs then [obs] else []
      else topOf raw address := by
  by_cases own : obs.indexerAddress = address
  · subst own
    rw [if_pos rfl, topOf, List.filter_append, topOf, List.filter_filter]
    congr 1
    · apply List.filter_congr
      intro kept _
      rw [Bool.eq_iff_iff]
      simp only [Bool.and_eq_true, decide_eq_true_eq, isTop_iff, List.forall_mem_append,
        List.forall_mem_singleton]
      constructor
      · rintro ⟨same, highest, last⟩
        exact ⟨last same.symm, same, highest⟩
      · rintro ⟨last, same, highest⟩
        exact ⟨same, highest, fun _ => last⟩
    · have top : isTop (raw ++ [obs]) obs = isTop raw obs := by
        rw [Bool.eq_iff_iff, isTop_iff, isTop_iff, List.forall_mem_append,
          List.forall_mem_singleton]
        exact and_iff_left fun _ => Nat.le_refl _
      cases held : isTop raw obs <;> simp [top, held]
  · rw [if_neg own, topOf, List.filter_append, topOf]
    have none_ : [obs].filter (fun other => other.indexerAddress = address &&
        isTop (raw ++ [obs]) other) = [] := by simp [own]
    rw [none_, List.append_nil]
    apply List.filter_congr
    intro kept _
    by_cases same : kept.indexerAddress = address
    · have apart : obs.indexerAddress ≠ kept.indexerAddress := fun eq => own (eq.trans same)
      have top : isTop (raw ++ [obs]) kept = isTop raw kept := by
        rw [Bool.eq_iff_iff, isTop_iff, isTop_iff, List.forall_mem_append,
          List.forall_mem_singleton]
        exact and_iff_left fun eq => absurd eq apart
      rw [top]
    · simp [same]

private theorem topOf_perm (perm : raw.Perm raw') :
    (topOf raw address).Perm (topOf raw' address) := by
  have tops : (fun obs : RawObservation => obs.indexerAddress = address && isTop raw obs) =
      fun obs => obs.indexerAddress = address && isTop raw' obs := by
    funext obs
    rw [isTop, isTop, perm.all_eq]
  rw [topOf, tops]
  exact perm.filter _

end Top

section Kept

variable {raw : List RawObservation} {address : String}

/-- What is kept under an address is the first of its highest rank. -/
theorem lookup_dedupByAddress (raw : List RawObservation) (address : String) :
    (dedupByAddress raw).lookup address = (topOf raw address).head? := by
  induction raw using List.reverseRecOn with
  | nil => rfl
  | append_singleton earlier obs ih =>
    rw [dedupByAddress_concat, lookup_keepBest, topOf_concat, ih]
    by_cases own : obs.indexerAddress = address
    · subst own
      rw [if_pos rfl, if_pos rfl]
      cases top : topOf earlier obs.indexerAddress with
      | nil =>
        -- Nothing was kept, so nothing of this address came before.
        have fresh : obs.indexerAddress ∉ earlier.map RawObservation.indexerAddress := by
          rw [← holds_dedupByAddress, Table.not_holds_iff_lookup, ih, top]
          rfl
        have alone : isTop earlier obs := by
          rw [isTop_iff]
          intro other member same
          exact absurd (same ▸ List.mem_map_of_mem member) fresh
        simp [alone]
      | cons kept rest =>
        have keptTop : kept ∈ topOf earlier obs.indexerAddress := top ▸ List.mem_cons_self
        obtain ⟨keptMember, keptOwn, highest⟩ := mem_topOf.mp keptTop
        by_cases outranks : rank kept < rank obs
        · have beaten : (kept :: rest).filter (fun kept => rank obs ≤ rank kept) = [] := by
            rw [← top, List.filter_eq_nil_iff]
            intro other otherTop
            obtain ⟨otherMember, otherOwn, _⟩ := mem_topOf.mp otherTop
            have below := highest other otherMember otherOwn
            simp only [decide_eq_true_eq]
            omega
          have above : isTop earlier obs := by
            rw [isTop_iff]
            intro other member same
            exact (highest other member same).trans outranks.le
          rw [beaten]
          simp [outranks, above]
        · have stays : rank obs ≤ rank kept := Nat.le_of_not_lt outranks
          simp [outranks, stays]
    · rw [if_neg own, if_neg (Ne.symm own)]

/-- The deduplicated rows are the first top answers of their addresses. -/
theorem mem_dedupByAddress {obs : RawObservation} :
    obs ∈ dedupByAddress raw ↔ (topOf raw obs.indexerAddress).head? = some obs := by
  rw [Table.mem_iff_lookup, lookup_dedupByAddress]

/-- The addresses stand in the order of their first appearance. -/
theorem addresses_dedupByAddress (raw : List RawObservation) :
    (dedupByAddress raw).rows.map RawObservation.indexerAddress =
      (raw.map RawObservation.indexerAddress).eraseDups := by
  induction raw using List.reverseRecOn with
  | nil => rfl
  | append_singleton earlier obs ih =>
    rw [List.map_append, List.map_singleton, eraseDups_concat, dedupByAddress_concat,
      Deduped.keepBest, Table.keys_upsert, ih]
    exact if_congr (holds_dedupByAddress earlier obs.indexerAddress) rfl rfl

/-- Observations of distinct addresses all stay, where they are. -/
theorem dedupByAddress_of_nodup
    (distinct : (raw.map RawObservation.indexerAddress).Nodup) :
    (dedupByAddress raw).rows = raw := by
  induction raw using List.reverseRecOn with
  | nil => rfl
  | append_singleton earlier obs ih =>
    rw [List.map_append, List.map_singleton, List.nodup_append] at distinct
    obtain ⟨earlierDistinct, _, apart⟩ := distinct
    have fresh : ¬ (dedupByAddress earlier).holds obs.indexerAddress := by
      rw [holds_dedupByAddress]
      exact fun seen => apart _ seen _ List.mem_cons_self rfl
    rw [dedupByAddress_concat, Deduped.keepBest, Table.rows_upsert_of_free fresh,
      ih earlierDistinct]

end Kept

section Informative

/-- A refusal of our payment and nothing else. -/
def RawObservation.isRefusal (obs : RawObservation) : Bool :=
  obs.responseHash.isNone && isPaymentError obs.errorClass

/-- One observation for each address, in order of appearance: the first of its highest rank, so a
refusal only if there was nothing else, and an answer whenever there was one. -/
structure KeepsMostInformative (raw kept : List RawObservation) : Prop where
  addresses : kept.map RawObservation.indexerAddress =
    (raw.map RawObservation.indexerAddress).eraseDups
  first : ∀ obs ∈ kept, (topOf raw obs.indexerAddress).head? = some obs
  refusal : ∀ obs ∈ kept, obs.isRefusal → ∀ other ∈ raw,
    other.indexerAddress = obs.indexerAddress → other.isRefusal
  answer : ∀ obs ∈ kept, ∀ other ∈ raw, other.indexerAddress = obs.indexerAddress →
    other.responseHash.isSome → obs.responseHash.isSome

/-- No address has two observations of its highest rank. -/
def Untied (raw : List RawObservation) : Prop := ∀ address, (topOf raw address).length ≤ 1

variable {raw raw' : List RawObservation}

private theorem isRefusal_iff {obs : RawObservation} : obs.isRefusal ↔ rank obs = 0 := by
  unfold RawObservation.isRefusal rank
  cases hashed : obs.responseHash <;> cases refused : isPaymentError obs.errorClass <;> simp

/-- Deduplication keeps a most informative answer of every indexer. -/
theorem keepsMostInformative (raw : List RawObservation) :
    KeepsMostInformative raw (dedupByAddress raw).rows := by
  have highest {obs : RawObservation} (kept : obs ∈ (dedupByAddress raw).rows) :
      ∀ other ∈ raw, other.indexerAddress = obs.indexerAddress → rank other ≤ rank obs :=
    (mem_topOf.mp (List.mem_of_head? (mem_dedupByAddress.mp kept))).2.2
  refine ⟨addresses_dedupByAddress raw, fun obs kept => mem_dedupByAddress.mp kept, ?_, ?_⟩
  · intro obs kept refused other member same
    rw [isRefusal_iff] at refused ⊢
    exact Nat.le_zero.mp (refused ▸ highest kept other member same)
  · intro obs kept other member same answered
    rw [← rank_eq_two_iff] at answered ⊢
    exact Nat.le_antisymm (rank_le obs) (answered ▸ highest kept other member same)

/-- Without ties the order of the list decides nothing. -/
theorem mem_dedupByAddress_perm (perm : raw.Perm raw') (untied : Untied raw)
    {obs : RawObservation} :
    obs ∈ dedupByAddress raw ↔ obs ∈ dedupByAddress raw' := by
  have tops := @topOf_perm raw raw' obs.indexerAddress perm
  have same : topOf raw obs.indexerAddress = topOf raw' obs.indexerAddress := by
    have one := untied obs.indexerAddress
    cases held : topOf raw obs.indexerAddress with
    | nil =>
      rw [held] at tops
      exact tops.nil_eq
    | cons only rest =>
      rw [held, List.length_cons] at one
      have alone : rest = [] := List.eq_nil_of_length_eq_zero (by omega)
      rw [held, alone] at tops
      rw [alone, List.singleton_perm.mp tops]
  rw [mem_dedupByAddress, mem_dedupByAddress, same]

/-- The most informative observation of each address is kept; what is kept stays as it is; and
without ties it does not depend on the order. -/
theorem dedupByAddress_spec (raw : List RawObservation) :
    KeepsMostInformative raw (dedupByAddress raw).rows ∧
      (dedupByAddress (dedupByAddress raw).rows).rows = (dedupByAddress raw).rows ∧
      ∀ raw' : List RawObservation, raw.Perm raw' → Untied raw →
        ∀ obs, obs ∈ dedupByAddress raw ↔ obs ∈ dedupByAddress raw' :=
  ⟨keepsMostInformative raw, dedupByAddress_of_nodup (dedupByAddress_nodup raw),
    fun _ perm untied _ => mem_dedupByAddress_perm perm untied⟩

end Informative

end Foghorn.Probe

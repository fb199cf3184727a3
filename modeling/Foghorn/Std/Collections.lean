import Foghorn.Std.Table
import Mathlib.Algebra.GroupWithZero.Nat
import Mathlib.Data.List.Dedup
import Mathlib.Data.List.Induction
import Mathlib.Algebra.BigOperators.Group.List.Basic
import Mathlib.Data.Finset.Card

/-!
# Grouping, counting and choosing

`groupBy` is SQL's `GROUP BY`; `pushAll` is the loop `entry(key).or_default().push(value)`
over a hash map, whose entries are a `Table` keyed by the map's key. A hash map is
iterated in an order nobody chooses: `IterOrder` is one such order, and
`lastMaxBy` is what `max_by_key` picks along it.
-/

namespace Foghorn.Std

variable {α β κ : Type}

section Group

variable [DecidableEq κ]

/-- `GROUP BY`: one group for each key that occurs, its members in scan order. -/
def groupBy (key : α → κ) (rows : List α) : List (κ × List α) :=
  (rows.map key).dedup.map fun wanted => (wanted, rows.filter fun row => key row = wanted)

/-- A group is there for every key that occurs, and holds the rows of that key. -/
theorem mem_groupBy {key : α → κ} {rows : List α} {wanted : κ} {group : List α} :
    (wanted, group) ∈ groupBy key rows ↔
      (∃ row ∈ rows, key row = wanted) ∧ group = rows.filter fun row => key row = wanted := by
  simp only [groupBy, List.mem_map, List.mem_dedup, Prod.mk.injEq]
  constructor
  · rintro ⟨_, occurs, rfl, rfl⟩
    exact ⟨occurs, rfl⟩
  · rintro ⟨occurs, rfl⟩
    exact ⟨wanted, occurs, rfl, rfl⟩

/-- The groups come in the order of their keys' last occurrences. -/
theorem groupBy_keys (key : α → κ) (rows : List α) :
    (groupBy key rows).map Prod.fst = (rows.map key).dedup := by
  simp [groupBy, Function.comp_def]

/-- No two groups share a key. -/
theorem groupBy_keys_nodup (key : α → κ) (rows : List α) :
    ((groupBy key rows).map Prod.fst).Nodup := by
  rw [groupBy_keys]
  exact List.nodup_dedup _

/-- The groups under a duplicate-free cover of the keys hold every row once. -/
theorem flatMap_filter_perm (key : α → κ) {wanted : List κ} (distinct : wanted.Nodup)
    {rows : List α} (covered : ∀ row ∈ rows, key row ∈ wanted) :
    (wanted.flatMap fun k => rows.filter fun row => key row = k).Perm rows := by
  induction wanted generalizing rows with
  | nil =>
    have nothing : rows = [] :=
      List.eq_nil_iff_forall_not_mem.mpr fun row member => List.not_mem_nil (covered row member)
    rw [nothing, List.flatMap_nil]
  | cons k rest ih =>
    obtain ⟨apart, restDistinct⟩ := List.nodup_cons.mp distinct
    have others : ∀ row ∈ rows.filter (fun row => !decide (key row = k)), key row ∈ rest := by
      intro row member
      obtain ⟨listed, differs⟩ := List.mem_filter.mp member
      exact (List.mem_cons.mp (covered row listed)).resolve_left (by simpa using differs)
    -- Setting the first group aside takes nothing from the others.
    have same : ∀ other ∈ rest, (rows.filter fun row => key row = other) =
        (rows.filter fun row => !decide (key row = k)).filter fun row => key row = other := by
      intro other member
      rw [List.filter_filter]
      apply List.filter_congr
      intro row _
      by_cases inOther : key row = other
      · have differs : other ≠ k := fun equal => apart (equal ▸ member)
        simp [inOther, differs]
      · simp [inOther]
    rw [List.flatMap_cons, List.flatMap_congr same]
    exact ((ih restDistinct others).append_left _).trans (List.filter_append_perm _ rows)

/-- Counting inside the groups of any duplicate-free cover of the keys counts every
row once. -/
theorem sum_countP_filter_eq (key : α → κ) (counted : α → Bool) (wanted : List κ)
    (distinct : wanted.Nodup) (rows : List α) (covered : ∀ row ∈ rows, key row ∈ wanted) :
    (wanted.map fun k => (rows.filter fun row => key row = k).countP counted).sum =
      rows.countP counted := by
  rw [← (flatMap_filter_perm key distinct covered).countP_eq counted, List.countP_flatMap]
  rfl

/-- Counting group by group counts everything. -/
theorem sum_countP_groupBy (key : α → κ) (counted : α → Bool) (rows : List α) :
    ((groupBy key rows).map fun group => group.2.countP counted).sum = rows.countP counted := by
  simp only [groupBy, List.map_map, Function.comp_def]
  exact sum_countP_filter_eq key counted _ (List.nodup_dedup _) rows
    (fun row member => List.mem_dedup.mpr (List.mem_map.mpr ⟨row, member, rfl⟩))

private theorem key_of_mem_groupBy {key : α → κ} {rows : List α} {group : κ × List α}
    (member : group ∈ groupBy key rows) {row : α} (inGroup : row ∈ group.2) : key row = group.1 := by
  obtain ⟨wanted, members⟩ := group
  obtain ⟨_, rfl⟩ := mem_groupBy.mp member
  exact of_decide_eq_true (List.mem_filter.mp inGroup).2

/-- Counting inside the groups with chosen keys counts the rows with chosen keys. -/
theorem sum_countP_groupBy_filter (key : α → κ) (chosen : κ → Bool) (counted : α → Bool)
    (rows : List α) :
    (((groupBy key rows).filter fun group => chosen group.1).map
      fun group => group.2.countP counted).sum =
        rows.countP fun row => chosen (key row) && counted row := by
  rw [← sum_countP_groupBy key]
  have keyed : ∀ group ∈ groupBy key rows, ∀ row ∈ group.2, key row = group.1 :=
    fun _ member _ inGroup => key_of_mem_groupBy member inGroup
  generalize groupBy key rows = groups at keyed
  induction groups with
  | nil => rfl
  | cons group rest ih =>
    have restKeyed := ih fun other member => keyed other (List.mem_cons_of_mem _ member)
    have inHead : (group.2.countP fun row => chosen (key row) && counted row) =
        group.2.countP fun row => chosen group.1 && counted row := by
      apply List.countP_congr
      intro row member
      rw [keyed group List.mem_cons_self row member]
    cases picked : chosen group.1 <;> simp [picked, restKeyed, inHead]

/-- `COUNT(DISTINCT value) FILTER (WHERE counted)`. -/
def countDistinct (value : α → κ) (counted : α → Bool) (rows : List α) : Nat :=
  ((rows.filter counted).map value).dedup.length

/-- Distinct values can be counted before or after a map. -/
theorem countDistinct_map {γ : Type} (f : γ → α) (value : α → κ) (counted : α → Bool)
    (rows : List γ) : countDistinct value counted (rows.map f) =
      countDistinct (fun row => value (f row)) (fun row => counted (f row)) rows := by
  rw [countDistinct, List.filter_map, List.map_map]
  rfl

/-- Counting distinct values looks at the counted rows' values alone. -/
theorem countDistinct_congr {value value' : α → κ} {counted counted' : α → Bool} {rows : List α}
    (values : ∀ row ∈ rows, value row = value' row)
    (counts : ∀ row ∈ rows, counted row = counted' row) :
    countDistinct value counted rows = countDistinct value' counted' rows := by
  unfold countDistinct
  rw [List.filter_congr counts,
    List.map_congr_left fun row listed => values row (List.mem_filter.mp listed).1]

/-- Distinct pairs with a first part are the distinct second parts beside it. -/
theorem countP_dedup_pairs {ν : Type} [DecidableEq ν] (first : α → ν) (second : α → κ)
    (rows : List α) (k : ν) :
    ((rows.map fun row => (first row, second row)).dedup).countP (fun pair => pair.1 = k) =
      countDistinct second (fun _ => true) (rows.filter fun row => first row = k) := by
  have same : (((rows.map fun row => (first row, second row)).dedup).filter
      fun pair => pair.1 = k).Perm
        ((((rows.filter fun row => first row = k).filter fun _ => true).map second).dedup.map
          fun value => (k, value)) := by
    refine (List.perm_ext_iff_of_nodup ((List.nodup_dedup _).filter _)
      ((List.nodup_dedup _).map fun _ _ equal => (Prod.mk.inj equal).2)).mpr fun pair => ?_
    obtain ⟨name, value⟩ := pair
    simp only [List.mem_filter, List.mem_dedup, List.mem_map, Prod.mk.injEq, decide_eq_true_eq,
      and_true]
    constructor
    · rintro ⟨⟨row, listed, rfl, rfl⟩, rfl⟩
      exact ⟨_, ⟨row, ⟨listed, rfl⟩, rfl⟩, rfl, rfl⟩
    · rintro ⟨_, ⟨row, ⟨listed, about⟩, rfl⟩, rfl, rfl⟩
      exact ⟨⟨row, listed, about, rfl⟩, rfl⟩
  rw [List.countP_eq_length_filter, same.length_eq, List.length_map]
  rfl

/-- A distinct count reaches the plain count exactly when no value is counted twice. -/
theorem countDistinct_eq_countP_iff (value : α → κ) (counted : α → Bool) (rows : List α) :
    countDistinct value counted rows = rows.countP counted ↔
      ((rows.filter counted).map value).Nodup := by
  rw [countDistinct, List.countP_eq_length_filter]
  constructor
  · intro equal
    have full := (List.dedup_sublist ((rows.filter counted).map value)).eq_of_length
      (by simpa using equal)
    exact full ▸ List.nodup_dedup _
  · intro distinct
    rw [distinct.dedup, List.length_map]

/-- There are no more distinct values than rows. -/
theorem countDistinct_le_length (value : α → κ) (counted : α → Bool) (rows : List α) :
    countDistinct value counted rows ≤ rows.length := by
  calc countDistinct value counted rows
      ≤ ((rows.filter counted).map value).length := (List.dedup_sublist _).length_le
    _ = (rows.filter counted).length := List.length_map _
    _ ≤ rows.length := List.length_filter_le _ _

/-- More than one value is counted exactly when two counted rows disagree. -/
theorem one_lt_countDistinct_iff {value : α → κ} {counted : α → Bool} {rows : List α} :
    1 < countDistinct value counted rows ↔ ∃ left ∈ rows, ∃ right ∈ rows,
      counted left ∧ counted right ∧ value left ≠ value right := by
  rw [countDistinct, ← List.card_toFinset, Finset.one_lt_card]
  simp only [List.mem_toFinset, List.mem_map, List.mem_filter]
  constructor
  · rintro ⟨_, ⟨left, ⟨memberLeft, countedLeft⟩, rfl⟩, _, ⟨right, ⟨memberRight, countedRight⟩, rfl⟩,
      apart⟩
    exact ⟨left, memberLeft, right, memberRight, countedLeft, countedRight, apart⟩
  · rintro ⟨left, memberLeft, right, memberRight, countedLeft, countedRight, apart⟩
    exact ⟨_, ⟨left, ⟨memberLeft, countedLeft⟩, rfl⟩, _, ⟨right, ⟨memberRight, countedRight⟩, rfl⟩,
      apart⟩

end Group

/-- Two predicates that never hold together count into any predicate above both. -/
theorem countP_add_le {left right above : α → Bool} (apart : ∀ row, left row → right row = false)
    (leftAbove : ∀ row, left row → above row) (rightAbove : ∀ row, right row → above row)
    (rows : List α) : rows.countP left + rows.countP right ≤ rows.countP above := by
  induction rows with
  | nil => simp
  | cons row rest ih =>
    simp only [List.countP_cons]
    cases isLeft : left row with
    | true =>
      simp only [apart row isLeft, leftAbove row isLeft, if_true, Bool.false_eq_true, if_false]
      omega
    | false =>
      cases isRight : right row with
      | true =>
        simp only [rightAbove row isRight, if_true, Bool.false_eq_true, if_false]
        omega
      | false =>
        simp only [Bool.false_eq_true, if_false]
        omega

/-- What satisfies one of two conditions that exclude each other, one after the other. -/
theorem filter_or_perm {first second : α → Bool} (apart : ∀ row, first row → second row = false)
    (rows : List α) : (rows.filter fun row => first row || second row).Perm
      (rows.filter first ++ rows.filter second) := by
  induction rows with
  | nil => exact .nil
  | cons row rest ih =>
    cases hit : first row with
    | true =>
      rw [List.filter_cons_of_pos (by simp [hit]), List.filter_cons_of_pos hit,
        List.filter_cons_of_neg (by simp [apart row hit])]
      exact ih.cons row
    | false =>
      cases also : second row with
      | true =>
        rw [List.filter_cons_of_pos (by simp [also]), List.filter_cons_of_neg (by simp [hit]),
          List.filter_cons_of_pos also]
        exact (ih.cons row).trans List.perm_middle.symm
      | false =>
        rw [List.filter_cons_of_neg (by simp [hit, also]), List.filter_cons_of_neg (by simp [hit]),
          List.filter_cons_of_neg (by simp [also])]
        exact ih

/-- Expanding the chosen entries is expanding all of them, the others to nothing. -/
theorem flatMap_filter (chosen : α → Bool) (expand : α → List β) (entries : List α) :
    (entries.filter chosen).flatMap expand =
      entries.flatMap fun entry => if chosen entry then expand entry else [] := by
  induction entries with
  | nil => rfl
  | cons entry rest ih =>
    cases picked : chosen entry <;> simp [picked, ih]

section HashMap

variable [DecidableEq κ]

/-- A hash map from keys to the values pushed under them. -/
abbrev Buckets (κ β : Type) := Table (κ × List β) κ Prod.fst

/-- `entry(key).or_default().push(value)`. -/
def Buckets.push (buckets : Buckets κ β) (key : κ) (value : β) : Buckets κ β :=
  buckets.upsert (key, [value]) (fun old => (old.1, old.2 ++ [value])) (fun _ same => same)

/-- The values that a list of pairs holds under one key, in order. -/
def valuesAt (pairs : List (κ × β)) (key : κ) : List β :=
  (pairs.filter fun pair => pair.1 = key).map Prod.snd

/-- Push every pair, in order, into an empty map. -/
def pushAll (pairs : List (κ × β)) : Buckets κ β :=
  pairs.foldl (fun buckets pair => buckets.push pair.1 pair.2) Table.empty

/-- A further pair adds its value under its own key. -/
theorem valuesAt_concat (pairs : List (κ × β)) (pair : κ × β) (key : κ) :
    valuesAt (pairs ++ [pair]) key =
      valuesAt pairs key ++ if pair.1 = key then [pair.2] else [] := by
  by_cases same : pair.1 = key <;> simp [valuesAt, same]

/-- `*entry(key).or_default()` stepped with each value in order, in an empty map. -/
def accumulate {γ : Type} (start : γ) (step : γ → β → γ) (pairs : List (κ × β)) :
    Table (κ × γ) κ Prod.fst :=
  pairs.foldl (fun entries pair => entries.upsert (pair.1, step start pair.2)
    (fun old => (old.1, step old.2 pair.2)) fun _ same => same) Table.empty

/-- An entry holds what its own values come to. -/
theorem lookup_accumulate {γ : Type} (start : γ) (step : γ → β → γ) (pairs : List (κ × β))
    (key : κ) : (accumulate start step pairs).lookup key =
      if valuesAt pairs key = [] then none else some (key, (valuesAt pairs key).foldl step start) := by
  induction pairs using List.reverseRecOn with
  | nil => rfl
  | append_singleton earlier pair ih =>
    have unfold : accumulate start step (earlier ++ [pair]) =
        (accumulate start step earlier).upsert (pair.1, step start pair.2)
          (fun old => (old.1, step old.2 pair.2)) fun _ same => same := by
      simp [accumulate, List.foldl_append]
    rw [unfold, Table.lookup_upsert, valuesAt_concat]
    by_cases same : key = pair.1
    · subst same
      rw [if_pos rfl, if_pos rfl, if_neg (by simp), List.foldl_append, ih]
      by_cases fresh : valuesAt earlier pair.1 = []
      · rw [if_pos fresh, fresh]
        rfl
      · rw [if_neg fresh]
        rfl
    · rw [if_neg same, if_neg (Ne.symm same), List.append_nil, ih]

/-- A key has no values exactly when no pair has it. -/
theorem valuesAt_eq_nil_iff {pairs : List (κ × β)} {key : κ} :
    valuesAt pairs key = [] ↔ key ∉ pairs.map Prod.fst := by
  rw [valuesAt, List.map_eq_nil_iff, List.filter_eq_nil_iff, List.mem_map, not_exists]
  simp only [decide_eq_true_eq, not_and]

/-- The entries, one for each key that occurs. -/
theorem accumulate_perm {γ : Type} (start : γ) (step : γ → β → γ) (pairs : List (κ × β)) :
    (accumulate start step pairs).rows.Perm
      ((pairs.map Prod.fst).dedup.map fun key => (key, (valuesAt pairs key).foldl step start)) := by
  have distinct : ((pairs.map Prod.fst).dedup.map fun key =>
      (key, (valuesAt pairs key).foldl step start)).Nodup :=
    (List.nodup_dedup _).map fun _ _ same => congrArg Prod.fst same
  refine (List.perm_ext_iff_of_nodup (accumulate start step pairs).unique.of_map distinct).mpr ?_
  intro entry
  have occurs : entry.1 ∈ pairs.map Prod.fst ↔ ¬ valuesAt pairs entry.1 = [] := by
    rw [valuesAt_eq_nil_iff, not_not]
  rw [Table.mem_rows, Table.mem_iff_lookup, lookup_accumulate, List.mem_map]
  simp only [List.mem_dedup]
  by_cases absent : valuesAt pairs entry.1 = []
  · rw [if_pos absent]
    refine iff_of_false (fun found => by cases found) ?_
    rintro ⟨key, member, rfl⟩
    exact occurs.mp member absent
  · rw [if_neg absent, Option.some.injEq]
    constructor
    · exact fun same => ⟨entry.1, occurs.mpr absent, same⟩
    · rintro ⟨key, _, rfl⟩
      rfl

/-- The entries of the map are the keys that occur with exactly their values. -/
theorem mem_pushAll (pairs : List (κ × β)) (key : κ) (values : List β) :
    (key, values) ∈ pushAll pairs ↔ values = valuesAt pairs key ∧ values ≠ [] := by
  have collected (pushed : List β) :
      pushed.foldl (fun values value => values ++ [value]) [] = pushed := by
    rw [List.foldl_append_eq_append, ← List.flatMap_def, List.flatMap_singleton', List.nil_append]
  have same : pushAll pairs = accumulate [] (fun values value => values ++ [value]) pairs := rfl
  rw [same, Table.mem_iff_lookup, lookup_accumulate, collected]
  by_cases absent : valuesAt pairs key = []
  · rw [if_pos absent, absent]
    exact iff_of_false (fun found => by cases found) fun held => held.2 held.1
  · rw [if_neg absent, Option.some.injEq, Prod.mk.injEq, and_iff_right rfl]
    constructor
    · intro held
      exact ⟨held.symm, held ▸ absent⟩
    · exact fun held => held.1.symm

/-- A hash map built by inserting pairs in order; a later one replaces an earlier one. -/
def mapOfPairs (pairs : List (κ × β)) : Table (κ × β) κ Prod.fst :=
  pairs.foldl (fun entries pair => entries.upsert pair (fun _ => pair) (fun _ _ => rfl)) Table.empty

/-- The last pair of a key is what stays under it. -/
theorem lookup_mapOfPairs (pairs : List (κ × β)) (key : κ) :
    (mapOfPairs pairs).lookup key = (pairs.filter fun pair => pair.1 = key).getLast? := by
  induction pairs using List.reverseRecOn with
  | nil => exact Table.lookup_empty key
  | append_singleton earlier last ih =>
    have step : mapOfPairs (earlier ++ [last]) =
        (mapOfPairs earlier).upsert last (fun _ => last) (fun _ _ => rfl) := by
      simp [mapOfPairs, List.foldl_append]
    rw [step, Table.lookup_upsert, List.filter_append, ih]
    by_cases hit : key = last.1
    · have kept : [last].filter (fun pair => pair.1 = key) = [last] := by simp [hit]
      rw [if_pos hit, kept, List.getLast?_concat]
      cases (earlier.filter fun pair => pair.1 = key).getLast? <;> rfl
    · have dropped : [last].filter (fun pair => pair.1 = key) = [] := by simp [Ne.symm hit]
      rw [if_neg hit, dropped, List.append_nil]

/-- With distinct keys the map holds just the pairs. -/
theorem mem_mapOfPairs {pairs : List (κ × β)} (distinct : (pairs.map Prod.fst).Nodup)
    {pair : κ × β} : pair ∈ mapOfPairs pairs ↔ pair ∈ pairs := by
  induction pairs using List.reverseRecOn generalizing pair with
  | nil => exact iff_of_false (Table.not_mem_empty _) List.not_mem_nil
  | append_singleton earlier last ih =>
    rw [List.map_append, List.map_singleton, List.nodup_append] at distinct
    obtain ⟨earlierDistinct, _, apart⟩ := distinct
    have fresh : ∀ old ∈ earlier, old.1 ≠ last.1 := fun old member =>
      apart _ (List.mem_map_of_mem member) _ List.mem_cons_self
    have unfold : mapOfPairs (earlier ++ [last]) =
        (mapOfPairs earlier).upsert last (fun _ => last) (fun _ _ => rfl) := by
      simp [mapOfPairs, List.foldl_append]
    have free : ¬ (mapOfPairs earlier).holds last.1 := by
      rw [Table.holds_iff]
      rintro ⟨old, member, same⟩
      exact fresh old ((ih earlierDistinct).mp member) same
    rw [unfold, Table.mem_upsert, List.mem_append, List.mem_singleton]
    constructor
    · rintro (⟨member, _⟩ | ⟨_, _, _, rfl⟩ | ⟨_, rfl⟩)
      · exact Or.inl ((ih earlierDistinct).mp member)
      · exact Or.inr rfl
      · exact Or.inr rfl
    · rintro (member | rfl)
      · exact Or.inl ⟨(ih earlierDistinct).mpr member, fresh pair member⟩
      · exact Or.inr (Or.inr ⟨free, rfl⟩)

end HashMap

section Traverse

variable {f : α → Option β} {entries : List α}

/-- A traversal that succeeds has one result for each entry. -/
theorem mapM_eq_some_iff {results : List β} :
    entries.mapM f = some results ↔ List.Forall₂ (fun entry result => f entry = some result) entries results := by
  induction entries generalizing results with
  | nil => simp [eq_comm]
  | cons entry rest ih =>
    rw [List.forall₂_cons_left_iff]
    simp only [List.mapM_cons, Option.bind_eq_bind, Option.bind_eq_some_iff, ih, Option.pure_def,
      Option.some.injEq]
    constructor
    · rintro ⟨result, held, others, rest, rfl⟩
      exact ⟨result, others, held, rest, rfl⟩
    · rintro ⟨result, others, held, rest, rfl⟩
      exact ⟨result, held, others, rest, rfl⟩

/-- Two traversals with the same results agree at each entry. -/
theorem exists_of_forall₂_forall₂ {R S : α → β → Prop} {results : List β}
    (left : List.Forall₂ R entries results) (right : List.Forall₂ S entries results) {entry : α}
    (member : entry ∈ entries) : ∃ result, R entry result ∧ S entry result := by
  induction left with
  | nil => cases member
  | cons first _ ih =>
    obtain ⟨second, others⟩ := List.forall₂_cons.mp right
    rcases List.mem_cons.mp member with rfl | later
    · exact ⟨_, first, second⟩
    · exact ih others later

/-- Distinct names stay distinct in what is kept of some entries. -/
theorem nodup_map_filterMap {κ : Type} {name : α → κ} {kept : β → κ}
    (names : ∀ entry result, f entry = some result → kept result = name entry)
    (distinct : (entries.map name).Nodup) : ((entries.filterMap f).map kept).Nodup := by
  rw [List.Nodup, List.pairwise_map] at distinct ⊢
  refine distinct.filterMap f fun left right apart result first other second same => apart ?_
  rw [← names left result first, ← names right other second, same]

/-- Looking for a fresh name finds nothing. -/
theorem find?_name_eq_none {κ : Type} [DecidableEq κ] {name : α → κ} {entries : List α} {wanted : κ}
    (fresh : wanted ∉ entries.map name) :
    entries.find? (fun entry => name entry = wanted) = none :=
  List.find?_eq_none.mpr fun _ listed about =>
    fresh (of_decide_eq_true about ▸ List.mem_map_of_mem listed)

/-- The first entry of a name is the entry, where names are distinct. -/
theorem find?_name_of_nodup {κ : Type} [DecidableEq κ] {name : α → κ} {entries : List α}
    (distinct : (entries.map name).Nodup) {entry : α} (listed : entry ∈ entries) :
    entries.find? (fun other => name other = name entry) = some entry := by
  induction entries with
  | nil => cases listed
  | cons first rest ih =>
    obtain ⟨fresh, later⟩ := List.nodup_cons.mp distinct
    rcases List.mem_cons.mp listed with rfl | listed
    · simp
    · have other : name first ≠ name entry :=
        fun eq => fresh (eq ▸ List.mem_map_of_mem listed)
      simp [other, ih later listed]

/-- Of entries with distinct keys the one of a key gives all that is collected under it. -/
theorem flatMap_eq_of_key {κ : Type} {name : α → κ} {entries : List α} (distinct : (entries.map name).Nodup)
    {g : α → List β} {entry : α} (listed : entry ∈ entries)
    (others : ∀ other ∈ entries, name other ≠ name entry → g other = []) :
    entries.flatMap g = g entry := by
  induction entries with
  | nil => cases listed
  | cons first rest ih =>
    obtain ⟨fresh, restDistinct⟩ := List.nodup_cons.mp distinct
    rw [List.flatMap_cons]
    rcases List.mem_cons.mp listed with rfl | later
    · have nothing : rest.flatMap g = [] := by
        rw [List.flatMap_eq_nil_iff]
        intro other member
        refine others other (List.mem_cons_of_mem _ member) fun same => fresh ?_
        exact same ▸ List.mem_map_of_mem member
      rw [nothing, List.append_nil]
    · have apart : name first ≠ name entry := fun same => fresh (same ▸ List.mem_map_of_mem later)
      rw [others first List.mem_cons_self apart, List.nil_append]
      exact ih restDistinct later fun other member => others other (List.mem_cons_of_mem _ member)

/-- It fails at an entry. -/
theorem mapM_eq_none_iff : entries.mapM f = none ↔ ∃ entry ∈ entries, f entry = none := by
  induction entries with
  | nil => simp
  | cons entry rest ih =>
    cases held : f entry with
    | none => simp [List.mapM_cons, held]
    | some result =>
      rw [List.exists_mem_cons_iff, held, ← ih, List.mapM_cons, held]
      cases rest.mapM f <;> simp

end Traverse

section Keyed

variable [DecidableEq κ]

/-- A map filled from groups, in any order, holds under a key what is computed from its rows, if
anything is. -/
theorem lookup_mapOfPairs_groupBy (key : α → κ) (rows : List α) (f : List α → Option β)
    {arranged : List (κ × β)} (perm : arranged.Perm
      ((groupBy key rows).filterMap fun group => (f group.2).map (Prod.mk group.1)))
    (wanted : κ) :
    ((mapOfPairs arranged).lookup wanted).map Prod.snd =
      if rows.filter (fun row => key row = wanted) = [] then none
      else f (rows.filter fun row => key row = wanted) := by
  have pairs (pair : κ × β) : pair ∈ arranged ↔ (∃ row ∈ rows, key row = pair.1) ∧
      f (rows.filter fun row => key row = pair.1) = some pair.2 := by
    rw [perm.mem_iff, List.mem_filterMap]
    constructor
    · rintro ⟨⟨name, group⟩, member, found⟩
      obtain ⟨occurs, rfl⟩ := mem_groupBy.mp member
      obtain ⟨value, computed, rfl⟩ := Option.map_eq_some_iff.mp found
      exact ⟨occurs, computed⟩
    · rintro ⟨occurs, computed⟩
      exact ⟨(pair.1, _), mem_groupBy.mpr ⟨occurs, rfl⟩,
        Option.map_eq_some_iff.mpr ⟨_, computed, rfl⟩⟩
  have distinct : (arranged.map Prod.fst).Nodup := by
    rw [(perm.map Prod.fst).nodup_iff]
    refine nodup_map_filterMap (fun group pair computed => ?_) (groupBy_keys_nodup key rows)
    obtain ⟨value, _, rfl⟩ := Option.map_eq_some_iff.mp computed
    rfl
  have occurs_iff : (∃ row ∈ rows, key row = wanted) ↔
      ¬ rows.filter (fun row => key row = wanted) = [] := by
    simp [List.filter_eq_nil_iff]
  apply Option.ext
  intro value
  rw [Option.map_eq_some_iff]
  constructor
  · rintro ⟨pair, found, rfl⟩
    obtain ⟨member, rfl⟩ := Table.lookup_eq_some_iff.mp found
    obtain ⟨occurs, computed⟩ := (pairs pair).mp ((mem_mapOfPairs distinct).mp member)
    rw [if_neg (occurs_iff.mp occurs), computed]
  · intro computed
    split at computed
    · cases computed
    · rename_i occurs
      refine ⟨(wanted, value), Table.lookup_eq_some_iff.mpr ⟨?_, rfl⟩, rfl⟩
      exact (mem_mapOfPairs distinct).mpr ((pairs _).mpr ⟨occurs_iff.mpr occurs, computed⟩)

/-- The groups of a pair of keys under one first key are the groups of its rows by the second. -/
theorem groupBy_pair_perm {ν : Type} [DecidableEq ν] (first : α → ν) (second : α → κ)
    (rows : List α) (wanted : ν) :
    (((groupBy (fun row => (first row, second row)) rows).filter fun group =>
        group.1.1 = wanted).map fun group => (group.1.2, group.2)).Perm
      (groupBy second (rows.filter fun row => first row = wanted)) := by
  have inner (name : κ) : (rows.filter fun row => first row = wanted).filter
      (fun row => second row = name) =
      rows.filter fun row => (first row, second row) = (wanted, name) := by
    rw [List.filter_filter]
    apply List.filter_congr
    intro row _
    simp [Prod.mk.injEq, and_comm]
  have distinct : (((groupBy (fun row => (first row, second row)) rows).filter fun group =>
      group.1.1 = wanted).map fun group => (group.1.2, group.2)).Nodup := by
    refine List.Nodup.map_on ?_ ((groupBy_keys_nodup _ rows).of_map _ |>.filter _)
    intro left leftMember right rightMember same
    have leftWanted : left.1.1 = wanted := of_decide_eq_true (List.mem_filter.mp leftMember).2
    have rightWanted : right.1.1 = wanted := of_decide_eq_true (List.mem_filter.mp rightMember).2
    obtain ⟨names, groups⟩ := Prod.mk.inj same
    exact Prod.ext (Prod.ext (leftWanted.trans rightWanted.symm) names) groups
  refine (List.perm_ext_iff_of_nodup distinct ((groupBy_keys_nodup _ _).of_map _)).mpr ?_
  rintro ⟨name, group⟩
  rw [List.mem_map, mem_groupBy, inner]
  constructor
  · rintro ⟨⟨⟨leading, name'⟩, group'⟩, member, same⟩
    obtain ⟨grouped, leads⟩ := List.mem_filter.mp member
    obtain rfl : leading = wanted := of_decide_eq_true leads
    obtain ⟨rfl, rfl⟩ := Prod.mk.inj same
    obtain ⟨⟨row, listed, keyed⟩, rfl⟩ := mem_groupBy.mp grouped
    obtain ⟨ofFirst, ofSecond⟩ := Prod.mk.inj keyed
    exact ⟨⟨row, List.mem_filter.mpr ⟨listed, decide_eq_true ofFirst⟩, ofSecond⟩, rfl⟩
  · rintro ⟨⟨row, listed, ofSecond⟩, rfl⟩
    obtain ⟨present, ofFirst⟩ := List.mem_filter.mp listed
    refine ⟨((wanted, name), _), List.mem_filter.mpr ⟨mem_groupBy.mpr ⟨⟨row, present, ?_⟩, rfl⟩,
      decide_eq_true rfl⟩, rfl⟩
    rw [of_decide_eq_true ofFirst, ofSecond]

/-- An element that has occurred does not appear again. -/
theorem eraseDups_concat (entries : List κ) (last : κ) :
    (entries ++ [last]).eraseDups =
      if last ∈ entries then entries.eraseDups else entries.eraseDups ++ [last] := by
  rw [List.eraseDups_append]
  by_cases seen : last ∈ entries
  · have nothing : [last].removeAll entries = [] := by simp [List.removeAll, seen]
    rw [if_pos seen, nothing, List.eraseDups_nil, List.append_nil]
  · have fresh : [last].removeAll entries = [last] := by simp [List.removeAll, seen]
    rw [if_neg seen, fresh]
    rfl

/-- A count of groups that only looks at which rows a group has does not see the scan order. -/
theorem countP_groupBy_perm {key : α → κ} {rows rows' : List α} {counted : κ × List α → Bool}
    (respects : ∀ name group group', List.Perm group group' →
      counted (name, group) = counted (name, group'))
    (perm : rows.Perm rows') :
    (groupBy key rows).countP counted = (groupBy key rows').countP counted := by
  rw [groupBy, groupBy, List.countP_map, List.countP_map, ((perm.map key).dedup).countP_eq]
  apply List.countP_congr
  intro name _
  rw [Function.comp_apply, Function.comp_apply, respects name _ _ (perm.filter _)]

end Keyed

/-- One iteration order of a hash map: some permutation of its entries. -/
structure IterOrder (α : Type) where
  arrange : List α → List α
  perm : ∀ entries, (arrange entries).Perm entries

namespace IterOrder

@[simp] theorem mem_arrange (order : IterOrder α) (entries : List α) (entry : α) :
    entry ∈ order.arrange entries ↔ entry ∈ entries :=
  (order.perm entries).mem_iff

@[simp] theorem length_arrange (order : IterOrder α) (entries : List α) :
    (order.arrange entries).length = entries.length :=
  (order.perm entries).length_eq

/-- Insertion order. -/
def asInserted : IterOrder α := ⟨id, fun _ => List.Perm.refl _⟩

/-- The reverse of insertion order. -/
def reversed : IterOrder α := ⟨List.reverse, List.reverse_perm⟩

end IterOrder

/-- Sorting forgets the order the entries came in. -/
theorem mergeSort_eq_of_perm {ι : Type} [LinearOrder ι] {left right : List ι} (perm : left.Perm right) :
    left.mergeSort (fun a b => a ≤ b) = right.mergeSort fun a b => a ≤ b := by
  have sorted (entries : List ι) :
      (entries.mergeSort fun a b => a ≤ b).Pairwise fun a b => a ≤ b := by
    refine (List.pairwise_mergeSort ?_ ?_ entries).imp fun holds => of_decide_eq_true holds
    · intro a b c first second
      exact decide_eq_true ((of_decide_eq_true first).trans (of_decide_eq_true second))
    · intro a b
      rcases le_total a b with le | le <;> simp [le]
  refine List.Perm.eq_of_pairwise (fun a b _ _ => le_antisymm) (sorted left) (sorted right) ?_
  exact (List.mergeSort_perm left _).trans (perm.trans (List.mergeSort_perm right _).symm)

/-- `max_by_key`: the last of the entries of greatest weight. -/
def lastMaxBy (weight : α → Nat) : List α → Option α
  | [] => none
  | head :: tail =>
    some (tail.foldl (fun best next => if weight next < weight best then best else next) head)

/-- The chosen entry is one of the list and none weighs more. -/
theorem lastMaxBy_spec {weight : α → Nat} {entries : List α} {best : α}
    (chosen : lastMaxBy weight entries = some best) :
    best ∈ entries ∧ ∀ entry ∈ entries, weight entry ≤ weight best := by
  have fold : ∀ (tail : List α) (head : α),
      let best := tail.foldl (fun best next => if weight next < weight best then best else next) head
      best ∈ head :: tail ∧ ∀ entry ∈ head :: tail, weight entry ≤ weight best := by
    intro tail
    induction tail with
    | nil => simp
    | cons next rest ih =>
      intro head
      obtain ⟨member, greatest⟩ := ih (if weight next < weight head then head else next)
      simp only [List.foldl_cons]
      have keepsBoth : weight head ≤ weight (if weight next < weight head then head else next) ∧
          weight next ≤ weight (if weight next < weight head then head else next) := by
        split <;> omega
      have start := greatest _ List.mem_cons_self
      refine ⟨?_, ?_⟩
      · rcases List.mem_cons.mp member with same | later
        · rw [same]
          split <;> simp
        · exact List.mem_cons_of_mem _ (List.mem_cons_of_mem _ later)
      · intro entry occurs
        rcases List.mem_cons.mp occurs with rfl | occurs
        · exact Nat.le_trans keepsBoth.1 start
        · rcases List.mem_cons.mp occurs with rfl | occurs
          · exact Nat.le_trans keepsBoth.2 start
          · exact greatest entry (List.mem_cons_of_mem _ occurs)
  cases entries with
  | nil => simp [lastMaxBy] at chosen
  | cons head tail =>
    simp only [lastMaxBy, Option.some.injEq] at chosen
    subst chosen
    exact fold tail head

section Chunks

/-- `chunks(size)`: as many as fit each time. The fuel is the number of items. -/
def chunksOf (size : Nat) : Nat → List α → List (List α)
  | fuel + 1, head :: rest =>
    (head :: rest).take size :: chunksOf size fuel ((head :: rest).drop size)
  | _, _ => []

/-- No chunk is empty. -/
theorem ne_nil_of_mem_chunksOf {size fuel : Nat} {items chunk : List α} (positive : 0 < size)
    (member : chunk ∈ chunksOf size fuel items) : chunk ≠ [] := by
  induction fuel generalizing items with
  | zero => cases member
  | succ fuel ih =>
    cases items with
    | nil => cases member
    | cons head rest =>
      rcases List.mem_cons.mp member with rfl | later
      · rw [← List.length_pos_iff, List.length_take, List.length_cons]
        omega
      · exact ih later

/-- The chunks hold the items in order. -/
theorem flatten_chunksOf {size fuel : Nat} {items : List α} (positive : 0 < size)
    (enough : items.length ≤ fuel) : (chunksOf size fuel items).flatten = items := by
  induction fuel generalizing items with
  | zero =>
    rw [List.length_eq_zero_iff.mp (Nat.le_zero.mp enough)]
    rfl
  | succ fuel ih =>
    cases items with
    | nil => rfl
    | cons head rest =>
      have shorter : ((head :: rest).drop size).length ≤ fuel := by
        rw [List.length_drop]
        omega
      rw [chunksOf, List.flatten_cons, ih shorter, List.take_append_drop]

/-- Reordering each of some lists reorders what they are together. -/
theorem flatten_mapIdx_arrange (orders : Nat → IterOrder α) (lists : List (List α)) :
    (lists.mapIdx fun n list => (orders n).arrange list).flatten.Perm lists.flatten := by
  induction lists generalizing orders with
  | nil => exact .refl _
  | cons list rest ih =>
    rw [List.mapIdx_cons, List.flatten_cons, List.flatten_cons]
    exact ((orders 0).perm list).append (ih fun n => orders (n + 1))

end Chunks

end Foghorn.Std

import Mathlib.Data.List.Sort
import Mathlib.Data.List.Perm.Basic

/-!
# Trees and their canonical text

A tree of lists and records over atoms is written with brackets and separators, the members
of a record in the order of their names. When no atom and no name can be mistaken for a
longer or another one, the text determines the tree up to the order of members.
-/

namespace Foghorn.Std

inductive Tree (κ α : Type) where
  | atom (value : α)
  | list (items : List (Tree κ α))
  | record (members : List (κ × Tree κ α))

/-- How atoms, names and brackets are written. The text of a name ends in whatever stands
between it and its value. -/
structure Spelling (κ α σ : Type) where
  atom : α → List σ
  name : κ → List σ
  openList : σ
  closeList : σ
  openRecord : σ
  closeRecord : σ
  separator : σ

variable {κ α β σ : Type}

/-- Atoms of another kind written as what they stand for. -/
def Spelling.comap (stands : β → α) (spelling : Spelling κ α σ) : Spelling κ β σ where
  atom value := spelling.atom (stands value)
  name := spelling.name
  openList := spelling.openList
  closeList := spelling.closeList
  openRecord := spelling.openRecord
  closeRecord := spelling.closeRecord
  separator := spelling.separator

namespace Tree

/-- Induction over a tree: a list from its items, a record from its members. -/
theorem induction {motive : Tree κ α → Prop} (atom : ∀ value, motive (.atom value))
    (list : ∀ items, (∀ item ∈ items, motive item) → motive (.list items))
    (record : ∀ members, (∀ entry ∈ members, motive entry.2) → motive (.record members))
    (tree : Tree κ α) : motive tree := by
  refine @Tree.rec κ α motive (fun items => ∀ item ∈ items, motive item)
    (fun members => ∀ entry ∈ members, motive entry.2) (fun entry => motive entry.2)
    atom list record ?_ ?_ ?_ ?_ ?_ tree
  · intro item member
    cases member
  · intro item rest first others
    exact List.forall_mem_cons.mpr ⟨first, others⟩
  · intro entry member
    cases member
  · intro entry rest first others
    exact List.forall_mem_cons.mpr ⟨first, others⟩
  · intro _ _ held
    exact held

mutual

/-- Equal up to the order of members, with corresponding atoms related. -/
def Matches (related : α → β → Prop) : Tree κ α → Tree κ β → Prop
  | .atom left, .atom right => related left right
  | .list items, .list others => MatchesItems related items others
  | .record members, .record others => MatchesMembers related members others
  | _, _ => False

def MatchesItems (related : α → β → Prop) : List (Tree κ α) → List (Tree κ β) → Prop
  | [], [] => True
  | item :: rest, other :: others => Matches related item other ∧ MatchesItems related rest others
  | _, _ => False

/-- The first member has its partner anywhere, and so have the remaining ones. -/
def MatchesMembers (related : α → β → Prop) : List (κ × Tree κ α) → List (κ × Tree κ β) → Prop
  | [], others => others = []
  | (name, value) :: rest, others => ∃ before partner after,
      others = before ++ (name, partner) :: after ∧ Matches related value partner ∧
        MatchesMembers related rest (before ++ after)

end

mutual

/-- No record has two members of one name. -/
def Distinct : Tree κ α → Prop
  | .atom _ => True
  | .list items => DistinctItems items
  | .record members => (members.map Prod.fst).Nodup ∧ DistinctMembers members

def DistinctItems : List (Tree κ α) → Prop
  | [] => True
  | item :: rest => Distinct item ∧ DistinctItems rest

def DistinctMembers : List (κ × Tree κ α) → Prop
  | [] => True
  | (_, value) :: rest => Distinct value ∧ DistinctMembers rest

end

mutual

/-- Every atom of the tree has the property. -/
def All (property : α → Prop) : Tree κ α → Prop
  | .atom value => property value
  | .list items => AllItems property items
  | .record members => AllMembers property members

def AllItems (property : α → Prop) : List (Tree κ α) → Prop
  | [] => True
  | item :: rest => All property item ∧ AllItems property rest

def AllMembers (property : α → Prop) : List (κ × Tree κ α) → Prop
  | [] => True
  | (_, value) :: rest => All property value ∧ AllMembers property rest

end

section Text

variable (spelling : Spelling κ α σ) (le : κ → κ → Prop) [DecidableRel le]

def sortMembers (members : List (κ × β)) : List (κ × β) :=
  members.insertionSort fun left right => le left.1 right.1

private theorem perm_sortMembers (members : List (κ × β)) : (sortMembers le members).Perm members :=
  List.perm_insertionSort _ members

/-- Members can be sorted before or after a map of their values. -/
theorem map_sortMembers {γ : Type} (f : β → γ) (members : List (κ × β)) :
    (sortMembers le members).map (fun entry => (entry.1, f entry.2)) =
      sortMembers le (members.map fun entry => (entry.1, f entry.2)) := by
  unfold sortMembers
  apply List.map_insertionSort
  exact fun _ _ _ _ => Iff.rfl

/-- The text of a member: its name, then its value. -/
def memberText (entry : κ × List σ) : List σ := spelling.name entry.1 ++ entry.2

mutual

def text : Tree κ α → List σ
  | .atom value => spelling.atom value
  | .list items =>
    spelling.openList :: ([spelling.separator].intercalate (textItems items) ++ [spelling.closeList])
  | .record members =>
    spelling.openRecord :: ([spelling.separator].intercalate
      ((sortMembers le (textMembers members)).map (memberText spelling)) ++ [spelling.closeRecord])

def textItems : List (Tree κ α) → List (List σ)
  | [] => []
  | item :: rest => text item :: textItems rest

def textMembers : List (κ × Tree κ α) → List (κ × List σ)
  | [] => []
  | (name, value) :: rest => (name, text value) :: textMembers rest

end

end Text

variable {spelling : Spelling κ α σ} {le : κ → κ → Prop} [DecidableRel le]

/-- The texts of a list's items are those of its trees. -/
theorem textItems_eq (items : List (Tree κ α)) :
    textItems spelling le items = items.map (text spelling le) := by
  induction items with
  | nil => rfl
  | cons item rest ih => rw [textItems, ih, List.map_cons]

/-- The texts of a record's members keep their names. -/
theorem textMembers_eq (members : List (κ × Tree κ α)) :
    textMembers spelling le members =
      members.map fun entry => (entry.1, entry.2.text spelling le) := by
  induction members with
  | nil => rfl
  | cons entry rest ih => rw [textMembers, ih, List.map_cons]

private theorem text_list_append (items : List (Tree κ α)) (rest : List σ) :
    (list items).text spelling le ++ rest = spelling.openList ::
      ([spelling.separator].intercalate (items.map (text spelling le)) ++
        spelling.closeList :: rest) := by
  rw [text, textItems_eq]
  simp

private theorem text_record_append (members : List (κ × Tree κ α)) (rest : List σ) :
    (record members).text spelling le ++ rest = spelling.openRecord ::
      ([spelling.separator].intercalate ((sortMembers le (members.map fun entry =>
        (entry.1, entry.2.text spelling le))).map (memberText spelling)) ++
          spelling.closeRecord :: rest) := by
  rw [text, textMembers_eq]
  simp

/-- The items of a list have distinct names when each has. -/
theorem distinctItems_iff {items : List (Tree κ α)} :
    DistinctItems items ↔ ∀ item ∈ items, item.Distinct := by
  induction items with
  | nil => simp [DistinctItems]
  | cons item rest ih => rw [DistinctItems, ih, List.forall_mem_cons]

/-- The members of a record have distinct names when each has. -/
theorem distinctMembers_iff {members : List (κ × Tree κ α)} :
    DistinctMembers members ↔ ∀ entry ∈ members, entry.2.Distinct := by
  induction members with
  | nil => simp [DistinctMembers]
  | cons entry rest ih => rw [DistinctMembers, ih, List.forall_mem_cons]

end Tree

section Joined

variable {separator close : σ} {items others : List (List σ)} {rest more : List σ}

private theorem intercalate_cons (item : List σ) (items : List (List σ)) :
    [separator].intercalate (item :: items) = item ++ items.flatMap (separator :: ·) := by
  induction items generalizing item with
  | nil => simp
  | cons next rest ih =>
    rw [List.intercalate_cons_cons, ih, List.flatMap_cons]
    simp

/-- What may stand behind a text: nothing, or one of the symbols that end it. -/
def Stops (ends rest : List σ) : Prop := ∀ symbol ∈ rest.head?, symbol ∈ ends

/-- A text is read the same way whatever may stand behind it. -/
def ReadsAs (ends item other : List σ) : Prop :=
  ∀ rest more, Stops ends rest → Stops ends more → item ++ rest = other ++ more → item = other

private theorem stops_flatMap {ends : List σ} (stop : separator ∈ ends) (closes : close ∈ ends)
    (items : List (List σ)) (rest : List σ) :
    Stops ends (items.flatMap (separator :: ·) ++ close :: rest) := by
  cases items with
  | nil => simpa [Stops] using closes
  | cons item items => simpa [Stops] using stop

/-- Items with a separator before each are read one by one up to the bracket that closes them. -/
theorem flatMap_inj {ends : List σ} (stop : separator ∈ ends) (closes : close ∈ ends)
    (apart : separator ≠ close) (clear : ∀ item ∈ items, ∀ other ∈ others, ReadsAs ends item other)
    (same : items.flatMap (separator :: ·) ++ close :: rest =
      others.flatMap (separator :: ·) ++ close :: more) : items = others ∧ rest = more := by
  induction items generalizing others with
  | nil =>
    cases others with
    | nil => exact ⟨rfl, (List.cons.inj same).2⟩
    | cons other others => exact absurd (List.cons.inj same).1.symm apart
  | cons item items ih =>
    cases others with
    | nil => exact absurd (List.cons.inj same).1 apart
    | cons other others =>
      rw [List.flatMap_cons, List.flatMap_cons, List.append_assoc, List.append_assoc] at same
      have tails := (List.cons.inj same).2
      obtain rfl := clear item List.mem_cons_self other List.mem_cons_self _ _
        (stops_flatMap stop closes items rest) (stops_flatMap stop closes others more) tails
      obtain ⟨rfl, ends⟩ := ih (fun item member other listed => clear item
        (List.mem_cons_of_mem _ member) other (List.mem_cons_of_mem _ listed))
        (List.append_cancel_left tails)
      exact ⟨rfl, ends⟩

/-- Nothing that begins otherwise can be the closing bracket. -/
def Opens (close : σ) (item : List σ) : Prop := ∃ symbol tail, item = symbol :: tail ∧ symbol ≠ close

/-- What opens an item is no closing bracket. -/
theorem Opens.ne {item : List σ} (opens : Opens close item) : close :: rest ≠ item ++ more := by
  obtain ⟨symbol, tail, rfl, differs⟩ := opens
  exact fun same => differs (List.cons.inj same).1.symm

/-- So are items with a separator between them, when none begins as the closing bracket. -/
theorem intercalate_inj {ends : List σ} (stop : separator ∈ ends) (closes : close ∈ ends)
    (apart : separator ≠ close) (clear : ∀ item ∈ items, ∀ other ∈ others, ReadsAs ends item other)
    (opens : ∀ item ∈ items, Opens close item) (othersOpen : ∀ other ∈ others, Opens close other)
    (same : [separator].intercalate items ++ close :: rest =
      [separator].intercalate others ++ close :: more) : items = others ∧ rest = more := by
  cases items with
  | nil =>
    cases others with
    | nil => exact ⟨rfl, (List.cons.inj same).2⟩
    | cons other others =>
      rw [intercalate_cons, List.append_assoc] at same
      exact absurd same (othersOpen other List.mem_cons_self).ne
  | cons item items =>
    cases others with
    | nil =>
      rw [intercalate_cons, List.append_assoc] at same
      exact absurd same.symm (opens item List.mem_cons_self).ne
    | cons other others =>
      rw [intercalate_cons, intercalate_cons, List.append_assoc, List.append_assoc] at same
      obtain rfl := clear item List.mem_cons_self other List.mem_cons_self _ _
        (stops_flatMap stop closes items rest) (stops_flatMap stop closes others more) same
      obtain ⟨rfl, ends⟩ := flatMap_inj stop closes apart
        (fun item member other listed => clear item (List.mem_cons_of_mem _ member) other
          (List.mem_cons_of_mem _ listed)) (List.append_cancel_left same)
      exact ⟨rfl, ends⟩

end Joined

/-- The symbols that can stand behind the text of a tree. -/
def Spelling.ends (spelling : Spelling κ α σ) : List σ :=
  [spelling.separator, spelling.closeList, spelling.closeRecord]

/-- No text of an atom or a name can be mistaken for another or for a bracket. -/
structure Spelling.Clear (spelling : Spelling κ α σ) : Prop where
  atom : ∀ left right, ReadsAs spelling.ends (spelling.atom left) (spelling.atom right)
  atomOpens : ∀ value, ∃ symbol tail, spelling.atom value = symbol :: tail ∧
    symbol ≠ spelling.openList ∧ symbol ≠ spelling.openRecord ∧ symbol ≠ spelling.closeList
  name : ∀ left right rest more, spelling.name left ++ rest = spelling.name right ++ more → left = right
  nameOpens : ∀ name, Opens spelling.closeRecord (spelling.name name)
  openings : spelling.openList ≠ spelling.openRecord
  listOpening : spelling.openList ≠ spelling.closeList
  recordOpening : spelling.openRecord ≠ spelling.closeList
  listSeparator : spelling.separator ≠ spelling.closeList
  recordSeparator : spelling.separator ≠ spelling.closeRecord

/-- A clear spelling stays clear under a map of the atoms. -/
theorem Spelling.Clear.comap {spelling : Spelling κ α σ} (clear : spelling.Clear) (stands : β → α) :
    (spelling.comap stands).Clear where
  atom left right := clear.atom (stands left) (stands right)
  atomOpens value := clear.atomOpens (stands value)
  name := clear.name
  nameOpens := clear.nameOpens
  openings := clear.openings
  listOpening := clear.listOpening
  recordOpening := clear.recordOpening
  listSeparator := clear.listSeparator
  recordSeparator := clear.recordSeparator

namespace Tree

section Sorted

variable {le : κ → κ → Prop} [DecidableRel le] [Std.Total le] [IsTrans κ le] [Std.Antisymm le]

/-- Members of distinct names have one order. -/
theorem sort_eq_of_perm {members others : List (κ × β)} (distinct : (members.map Prod.fst).Nodup)
    (perm : members.Perm others) :
    sortMembers le members = sortMembers le others := by
  have total : Std.Total fun left right : κ × β => le left.1 right.1 :=
    ⟨fun left right => total_of le left.1 right.1⟩
  have trans : IsTrans (κ × β) fun left right => le left.1 right.1 :=
    ⟨fun _ _ _ first second => IsTrans.trans _ _ _ first second⟩
  have sorted := (List.perm_insertionSort (fun left right : κ × β => le left.1 right.1) members)
  have resorted := (List.perm_insertionSort (fun left right : κ × β => le left.1 right.1) others)
  refine List.Perm.eq_of_pairwise ?_ (List.pairwise_insertionSort _ _)
    (List.pairwise_insertionSort _ _) (sorted.trans (perm.trans resorted.symm))
  intro left right listed among le_right le_left
  have member := sorted.mem_iff.mp listed
  have other := perm.mem_iff.mpr (resorted.mem_iff.mp among)
  exact List.inj_on_of_nodup_map distinct member other (antisymm le_right le_left)

end Sorted

section Same

variable {related : α → β → Prop}

/-- Members pair up when their values match exactly if some reading of them agrees. -/
theorem matchesMembers_of_perm {ρ : Type} {read : Tree κ α → ρ} {reread : Tree κ β → ρ}
    {members : List (κ × Tree κ α)} {others : List (κ × Tree κ β)}
    (known : ∀ entry ∈ members, ∀ other ∈ others,
      read entry.2 = reread other.2 → Matches related entry.2 other.2)
    (perm : (members.map fun entry => (entry.1, read entry.2)).Perm
      (others.map fun entry => (entry.1, reread entry.2))) : MatchesMembers related members others := by
  induction members generalizing others with
  | nil =>
    rw [MatchesMembers]
    exact List.map_eq_nil_iff.mp perm.nil_eq.symm
  | cons entry rest ih =>
    obtain ⟨name, value⟩ := entry
    have listed := perm.mem_iff.mp List.mem_cons_self
    obtain ⟨⟨other, partner⟩, among, same⟩ := List.mem_map.mp listed
    obtain ⟨rfl, reads⟩ : other = name ∧ reread partner = read value := Prod.mk.inj same
    obtain ⟨before, after, rfl⟩ := List.append_of_mem among
    refine ⟨before, partner, after, rfl, known _ List.mem_cons_self _ among reads.symm, ?_⟩
    apply ih
    · intro entry member other listed
      refine known entry (List.mem_cons_of_mem _ member) other ?_
      simp only [List.mem_append, List.mem_cons] at listed ⊢
      exact listed.imp_right .inr
    · rw [List.map_append, List.map_cons, List.map_cons, reads] at perm
      rw [List.map_append]
      exact (perm.trans List.perm_middle).cons_inv

private theorem perm_of_matchesMembers {ρ : Type} {read : Tree κ α → ρ} {reread : Tree κ β → ρ}
    {members : List (κ × Tree κ α)} {others : List (κ × Tree κ β)}
    (agree : ∀ entry ∈ members, ∀ other, Matches related entry.2 other → read entry.2 = reread other)
    (same : MatchesMembers related members others) :
    (members.map fun entry => (entry.1, read entry.2)).Perm
      (others.map fun entry => (entry.1, reread entry.2)) := by
  induction members generalizing others with
  | nil =>
    rw [MatchesMembers] at same
    rw [same]
    exact .nil
  | cons entry rest ih =>
    obtain ⟨before, partner, after, rfl, first, remaining⟩ := same
    rw [List.map_cons, List.map_append, List.map_cons, agree _ List.mem_cons_self _ first]
    have kept := ih (fun entry member => agree entry (List.mem_cons_of_mem _ member)) remaining
    rw [List.map_append] at kept
    exact (kept.cons _).trans List.perm_middle.symm

private theorem matchesItems_of_map {ρ : Type} {read : Tree κ α → ρ} {reread : Tree κ β → ρ}
    {items : List (Tree κ α)} {others : List (Tree κ β)}
    (known : ∀ item ∈ items, ∀ other ∈ others, read item = reread other → Matches related item other)
    (same : items.map read = others.map reread) : MatchesItems related items others := by
  induction items generalizing others with
  | nil =>
    rw [List.map_nil, eq_comm, List.map_eq_nil_iff] at same
    rw [same]
    trivial
  | cons item rest ih =>
    cases others with
    | nil => cases same
    | cons other others =>
      obtain ⟨reads, tails⟩ := List.cons.inj same
      exact ⟨known item List.mem_cons_self other List.mem_cons_self reads,
        ih (fun item member other listed => known item (List.mem_cons_of_mem _ member) other
          (List.mem_cons_of_mem _ listed)) tails⟩

private theorem map_of_matchesItems {ρ : Type} {read : Tree κ α → ρ} {reread : Tree κ β → ρ}
    {items : List (Tree κ α)} {others : List (Tree κ β)}
    (agree : ∀ item ∈ items, ∀ other, Matches related item other → read item = reread other)
    (same : MatchesItems related items others) : items.map read = others.map reread := by
  induction items generalizing others with
  | nil =>
    cases others with
    | nil => rfl
    | cons other others => exact absurd same id
  | cons item rest ih =>
    cases others with
    | nil => exact absurd same id
    | cons other others =>
      rw [List.map_cons, List.map_cons, agree item List.mem_cons_self other same.1,
        ih (fun item member => agree item (List.mem_cons_of_mem _ member)) same.2]

private theorem allItems_iff {property : α → Prop} {items : List (Tree κ α)} :
    AllItems property items ↔ ∀ item ∈ items, item.All property := by
  induction items with
  | nil => simp [AllItems]
  | cons item rest ih => rw [AllItems, ih, List.forall_mem_cons]

/-- A property of all scalars of the members is one of each member's. -/
theorem allMembers_iff {property : α → Prop} {members : List (κ × Tree κ α)} :
    AllMembers property members ↔ ∀ entry ∈ members, entry.2.All property := by
  induction members with
  | nil => simp [AllMembers]
  | cons entry rest ih => rw [AllMembers, ih, List.forall_mem_cons]

private theorem matchesItems_imp {also implied : α → β → Prop} {items : List (Tree κ α)}
    {others : List (Tree κ β)} (implies : ∀ item ∈ items, ∀ other ∈ others,
      Matches related item other → Matches also item other → Matches implied item other)
    (first : MatchesItems related items others) (second : MatchesItems also items others) :
    MatchesItems implied items others := by
  induction items generalizing others with
  | nil => cases others <;> exact first
  | cons item rest ih =>
    cases others with
    | nil => exact first
    | cons other others =>
      exact ⟨implies item List.mem_cons_self other List.mem_cons_self first.1 second.1,
        ih (fun item member other listed => implies item (List.mem_cons_of_mem _ member) other
          (List.mem_cons_of_mem _ listed)) first.2 second.2⟩

private theorem matchesMembers_imp {implied : α → β → Prop} {members : List (κ × Tree κ α)}
    {others : List (κ × Tree κ β)} (implies : ∀ entry ∈ members, ∀ other ∈ others,
      entry.1 = other.1 → Matches related entry.2 other.2 → Matches implied entry.2 other.2)
    (same : MatchesMembers related members others) : MatchesMembers implied members others := by
  induction members generalizing others with
  | nil => exact same
  | cons entry rest ih =>
    obtain ⟨before, partner, after, rfl, first, remaining⟩ := same
    have among : (entry.1, partner) ∈ before ++ (entry.1, partner) :: after := by simp
    refine ⟨before, partner, after, rfl,
      implies entry List.mem_cons_self (entry.1, partner) among rfl first, ih ?_ remaining⟩
    intro other member partner listed
    refine implies other (List.mem_cons_of_mem _ member) partner ?_
    simp only [List.mem_append, List.mem_cons] at listed ⊢
    exact listed.imp_right .inr

/-- What the relation of two atoms implies is implied of corresponding atoms. -/
theorem Matches.imp {implied : α → β → Prop} {property : α → Prop} {others : β → Prop}
    (implies : ∀ left right, property left → others right → related left right → implied left right)
    {tree : Tree κ α} (left : tree.All property) {other : Tree κ β} (right : other.All others)
    (same : Matches related tree other) : Matches implied tree other := by
  induction tree using Tree.induction generalizing other with
  | atom value =>
    cases other with
    | atom partner => exact implies value partner left right same
    | list items => exact absurd same id
    | record members => exact absurd same id
  | list items ih =>
    cases other with
    | atom partner => exact absurd same id
    | record members => exact absurd same id
    | list partners =>
      exact matchesItems_imp (fun item member partner listed matched _ => ih item member
        (allItems_iff.mp left item member) (allItems_iff.mp right partner listed) matched) same same
  | record members ih =>
    cases other with
    | atom partner => exact absurd same id
    | list items => exact absurd same id
    | record partners =>
      exact matchesMembers_imp (fun entry member partner listed _ => ih entry member
        (allMembers_iff.mp left entry member) (allMembers_iff.mp right partner listed)) same

/-- What always holds holds of every scalar of a tree. -/
theorem all_of_forall {property : α → Prop} (always : ∀ value, property value) (tree : Tree κ α) :
    tree.All property := by
  induction tree using Tree.induction with
  | atom value => exact always value
  | list items ih => exact allItems_iff.mpr ih
  | record members ih => exact allMembers_iff.mpr ih

/-- Matching trees match under a weaker relation. -/
theorem Matches.mono {implied : α → β → Prop}
    (implies : ∀ left right, related left right → implied left right) {tree : Tree κ α}
    {other : Tree κ β} (same : Matches related tree other) : Matches implied tree other :=
  same.imp (fun left right _ _ => implies left right)
    (all_of_forall (fun _ => trivial) tree) (all_of_forall (fun _ => trivial) other)

private theorem matchesMembers_perm {members : List (κ × Tree κ α)} {others : List (κ × Tree κ β)}
    (same : MatchesMembers related members others) :
    (members.map Prod.fst).Perm (others.map Prod.fst) := by
  have names := (@perm_of_matchesMembers κ α β related Unit (fun _ => ()) (fun _ => ()) members
    others (fun _ _ _ _ => rfl) same).map Prod.fst
  rwa [List.map_map, List.map_map] at names

/-- Of a distinct name there is one partner. -/
theorem partner_of_matchesMembers {members : List (κ × Tree κ α)} {others : List (κ × Tree κ β)}
    (distinct : (members.map Prod.fst).Nodup) (same : MatchesMembers related members others)
    {entry : κ × Tree κ α} (member : entry ∈ members) {other : κ × Tree κ β} (listed : other ∈ others)
    (named : entry.1 = other.1) : Matches related entry.2 other.2 := by
  have othersDistinct := (matchesMembers_perm same).nodup_iff.mp distinct
  induction members generalizing others with
  | nil => cases member
  | cons first rest ih =>
    obtain ⟨before, partner, after, rfl, matched, remaining⟩ := same
    have among : (first.1, partner) ∈ before ++ (first.1, partner) :: after := by simp
    obtain ⟨fresh, restDistinct⟩ := List.nodup_cons.mp distinct
    rcases List.mem_cons.mp member with rfl | later
    · obtain rfl := List.inj_on_of_nodup_map othersDistinct listed among named.symm
      exact matched
    · have apart : other ≠ (first.1, partner) := by
        rintro rfl
        exact fresh (named ▸ List.mem_map_of_mem later)
      have kept : other ∈ before ++ after := by
        simp only [List.mem_append, List.mem_cons] at listed ⊢
        exact listed.imp_right fun either => either.resolve_left apart
      exact ih restDistinct remaining later kept
        ((matchesMembers_perm remaining).nodup_iff.mp restDistinct)

/-- Two relations of corresponding atoms hold together: distinct names leave one partner. -/
theorem Matches.and {also : α → β → Prop} {tree : Tree κ α} (distinct : tree.Distinct)
    {other : Tree κ β} (first : Matches related tree other) (second : Matches also tree other) :
    Matches (fun left right => related left right ∧ also left right) tree other := by
  induction tree using Tree.induction generalizing other with
  | atom value =>
    cases other with
    | atom partner => exact ⟨first, second⟩
    | list items => exact absurd first id
    | record members => exact absurd first id
  | list items ih =>
    cases other with
    | atom partner => exact absurd first id
    | record members => exact absurd first id
    | list partners =>
      exact matchesItems_imp (fun item member partner _ matched also => ih item member
        (distinctItems_iff.mp distinct item member) matched also) first second
  | record members ih =>
    cases other with
    | atom partner => exact absurd first id
    | list items => exact absurd first id
    | record partners =>
      refine matchesMembers_imp (fun entry member partner listed named matched => ih entry member
        (distinctMembers_iff.mp distinct.2 entry member) matched ?_) first
      exact partner_of_matchesMembers distinct.1 second member listed named

end Same

section Text

variable {spelling : Spelling κ α σ} {le : κ → κ → Prop} [DecidableRel le]

/-- The text of a tree does not begin as the end of a list. -/
theorem opens_text (clear : spelling.Clear) (tree : Tree κ α) :
    Opens spelling.closeList (tree.text spelling le) := by
  cases tree with
  | atom value =>
    obtain ⟨symbol, tail, begins, _, _, differs⟩ := clear.atomOpens value
    exact ⟨symbol, tail, begins, differs⟩
  | list items => exact ⟨_, _, rfl, clear.listOpening⟩
  | record members => exact ⟨_, _, rfl, clear.recordOpening⟩

private theorem atom_ne_open (clear : spelling.Clear) {value : α} {symbol : σ} {rest more : List σ}
    (bracket : symbol = spelling.openList ∨ symbol = spelling.openRecord) :
    spelling.atom value ++ rest ≠ symbol :: more := by
  obtain ⟨first, tail, begins, list, record, _⟩ := clear.atomOpens value
  rw [begins]
  intro same
  obtain rfl := (List.cons.inj same).1
  exact bracket.elim list record

private theorem memberText_inj (clear : spelling.Clear) {left right : κ × List σ}
    (same : memberText spelling left = memberText spelling right) : left = right := by
  obtain ⟨name, value⟩ := left
  obtain ⟨other, partner⟩ := right
  obtain rfl : name = other := clear.name name other value partner same
  obtain rfl : value = partner := List.append_cancel_left same
  rfl

private theorem readsAs_memberText (clear : spelling.Clear) {left right : κ × List σ}
    (values : ReadsAs spelling.ends left.2 right.2) :
    ReadsAs spelling.ends (memberText spelling left) (memberText spelling right) := by
  intro rest more stops others same
  rw [memberText, memberText, List.append_assoc, List.append_assoc] at same
  have names := clear.name _ _ _ _ same
  rw [names] at same
  rw [memberText, memberText, names, values rest more stops others (List.append_cancel_left same)]

private theorem opens_memberText (clear : spelling.Clear) (entry : κ × List σ) :
    Opens spelling.closeRecord (memberText spelling entry) := by
  obtain ⟨symbol, tail, begins, differs⟩ := clear.nameOpens entry.1
  exact ⟨symbol, tail ++ entry.2, by rw [memberText, begins, List.cons_append], differs⟩

variable (spelling le) in
/-- What begins as the text of the tree is the text of a tree that is the same up to the order
of members, and what stands behind it is what stood behind. -/
def Readable (tree : Tree κ α) : Prop :=
  ∀ other rest more, Stops spelling.ends rest → Stops spelling.ends more →
    tree.text spelling le ++ rest = other.text spelling le ++ more →
      Matches (fun left right => spelling.atom left = spelling.atom right) tree other ∧ rest = more

/-- A readable tree's text can be told apart from what follows it. -/
theorem Readable.readsAs {tree : Tree κ α} (readable : tree.Readable spelling le)
    (other : Tree κ α) :
    ReadsAs spelling.ends (tree.text spelling le) (other.text spelling le) := by
  intro rest more stops others same
  obtain ⟨_, rfl⟩ := readable other rest more stops others same
  exact List.append_cancel_right same

/-- Two trees of one text match, atom by atom. -/
theorem Readable.matches {tree other : Tree κ α} (readable : tree.Readable spelling le)
    (same : tree.text spelling le = other.text spelling le) :
    Matches (fun left right => spelling.atom left = spelling.atom right) tree other := by
  have stops : Stops spelling.ends [] := by simp [Stops]
  exact (readable other [] [] stops stops (by rw [same])).1

private theorem readable_atom (clear : spelling.Clear) (value : α) :
    (atom value : Tree κ α).Readable spelling le := by
  intro other rest more stops others same
  cases other with
  | atom partner =>
    have texts := clear.atom value partner rest more stops others same
    rw [text, text, texts] at same
    exact ⟨texts, List.append_cancel_left same⟩
  | list items => exact absurd same (atom_ne_open clear (.inl rfl))
  | record members => exact absurd same (atom_ne_open clear (.inr rfl))

/-- A list of readable trees is readable. -/
theorem readable_list (clear : spelling.Clear) {items : List (Tree κ α)}
    (readable : ∀ item ∈ items, item.Readable spelling le) :
    (list items).Readable spelling le := by
  intro other rest more stops others same
  cases other with
  | atom partner => exact absurd same.symm (atom_ne_open clear (.inl rfl))
  | record members => exact absurd (List.cons.inj same).1 clear.openings
  | list partners =>
    rw [text_list_append, text_list_append] at same
    have separates : spelling.separator ∈ spelling.ends := by simp [Spelling.ends]
    have closes : spelling.closeList ∈ spelling.ends := by simp [Spelling.ends]
    have clearItems : ∀ item ∈ items.map (text spelling le), ∀ other ∈ partners.map (text spelling le),
        ReadsAs spelling.ends item other := by
      intro item member other listed
      obtain ⟨tree, among, rfl⟩ := List.mem_map.mp member
      obtain ⟨partner, _, rfl⟩ := List.mem_map.mp listed
      exact (readable tree among).readsAs partner
    have opens (trees : List (Tree κ α)) :
        ∀ item ∈ trees.map (text spelling le), Opens spelling.closeList item := by
      intro item member
      obtain ⟨tree, _, rfl⟩ := List.mem_map.mp member
      exact opens_text clear tree
    obtain ⟨texts, tails⟩ := intercalate_inj separates closes clear.listSeparator clearItems
      (opens items) (opens partners) (List.cons.inj same).2
    exact ⟨matchesItems_of_map (fun item member _ _ reads => (readable item member).matches reads)
      texts, tails⟩

/-- A record of readable trees is readable. -/
theorem readable_record (clear : spelling.Clear) {members : List (κ × Tree κ α)}
    (readable : ∀ entry ∈ members, entry.2.Readable spelling le) :
    (record members).Readable spelling le := by
  intro other rest more stops others same
  cases other with
  | atom partner => exact absurd same.symm (atom_ne_open clear (.inr rfl))
  | list items => exact absurd (List.cons.inj same).1.symm clear.openings
  | record partners =>
    rw [text_record_append, text_record_append] at same
    have separates : spelling.separator ∈ spelling.ends := by simp [Spelling.ends]
    have closes : spelling.closeRecord ∈ spelling.ends := by simp [Spelling.ends]
    have clearMembers : ∀ item ∈ (sortMembers le (members.map fun entry =>
        (entry.1, entry.2.text spelling le))).map (memberText spelling),
        ∀ other ∈ (sortMembers le (partners.map fun entry =>
          (entry.1, entry.2.text spelling le))).map (memberText spelling),
        ReadsAs spelling.ends item other := by
      intro item member other listed
      obtain ⟨entry, sorted, rfl⟩ := List.mem_map.mp member
      obtain ⟨partner, resorted, rfl⟩ := List.mem_map.mp listed
      obtain ⟨tree, among, rfl⟩ := List.mem_map.mp ((perm_sortMembers le _).mem_iff.mp sorted)
      obtain ⟨value, _, rfl⟩ := List.mem_map.mp ((perm_sortMembers le _).mem_iff.mp resorted)
      exact readsAs_memberText clear ((readable tree among).readsAs value.2)
    have opens (entries : List (κ × List σ)) :
        ∀ item ∈ entries.map (memberText spelling), Opens spelling.closeRecord item := by
      intro item member
      obtain ⟨entry, _, rfl⟩ := List.mem_map.mp member
      exact opens_memberText clear entry
    obtain ⟨texts, tails⟩ := intercalate_inj separates closes clear.recordSeparator clearMembers
      (opens _) (opens _) (List.cons.inj same).2
    have sorted := List.map_injective_iff.mpr (fun _ _ => memberText_inj clear) texts
    refine ⟨matchesMembers_of_perm (fun entry member _ _ reads =>
      (readable entry member).matches reads) ?_, tails⟩
    have perm := perm_sortMembers le (partners.map fun entry => (entry.1, entry.2.text spelling le))
    rw [← sorted] at perm
    exact (perm_sortMembers le _).symm.trans perm

end Text

section Canonical

variable {spelling : Spelling κ α σ} {le : κ → κ → Prop} [DecidableRel le]

/-- With a clear spelling every tree is readable. -/
theorem readable (clear : spelling.Clear) (tree : Tree κ α) : tree.Readable spelling le := by
  induction tree using Tree.induction with
  | atom value => exact readable_atom clear value
  | list items ih => exact readable_list clear ih
  | record members ih => exact readable_record clear ih

variable [Std.Total le] [IsTrans κ le] [Std.Antisymm le] {related : α → α → Prop}

/-- The order of members does not show in the text. -/
theorem text_record_of_perm {members others : List (κ × Tree κ α)}
    (distinct : (members.map Prod.fst).Nodup)
    (perm : (members.map fun entry => (entry.1, entry.2.text spelling le)).Perm
      (others.map fun entry => (entry.1, entry.2.text spelling le))) :
    (record members).text spelling le = (record others).text spelling le := by
  rw [text, text, textMembers_eq, textMembers_eq, sort_eq_of_perm ?_ perm]
  rw [List.map_map]
  exact distinct

/-- Trees that are the same up to the order of members have one text. -/
theorem text_of_matches (agree : ∀ left right, related left right →
      spelling.atom left = spelling.atom right) {tree : Tree κ α} (distinct : tree.Distinct)
    {other : Tree κ α} (same : Matches related tree other) :
    tree.text spelling le = other.text spelling le := by
  induction tree using Tree.induction generalizing other with
  | atom value =>
    cases other with
    | atom partner => exact agree value partner same
    | list items => exact absurd same id
    | record members => exact absurd same id
  | list items ih =>
    cases other with
    | atom partner => exact absurd same id
    | record members => exact absurd same id
    | list partners =>
      have inside := distinctItems_iff.mp distinct
      rw [text, text, textItems_eq, textItems_eq, map_of_matchesItems (fun item member _ matched =>
        ih item member (inside item member) matched) same]
  | record members ih =>
    cases other with
    | atom partner => exact absurd same id
    | list items => exact absurd same id
    | record partners =>
      have inside := distinctMembers_iff.mp distinct.2
      exact text_record_of_perm distinct.1 (perm_of_matchesMembers (fun entry member _ matched =>
        ih entry member (inside entry member) matched) same)

/-- The text of a tree identifies it up to the order of members. -/
theorem text_eq_iff (clear : spelling.Clear) {tree other : Tree κ α} (distinct : tree.Distinct) :
    tree.text spelling le = other.text spelling le ↔
      Matches (fun left right => spelling.atom left = spelling.atom right) tree other :=
  ⟨(readable clear tree).matches, text_of_matches (fun _ _ same => same) distinct⟩

end Canonical

end Tree

end Foghorn.Std

import Foghorn.Probe.Watches

/-!
# Posts of the roster

The roster is posted when its fingerprint is not the one posted last, and else once a day. The
fingerprint and the time of the last post are one row, written when all of a post was accepted.
-/

namespace Foghorn.Probe

open Foghorn.Core Foghorn.Std

/-- `alerter_state`. -/
structure AlerterState where
  lastPost : Option Int
  lastFingerprint : Option String

/-- The tables that a cycle writes. -/
structure RosterState where
  members : AlertMembers
  alerter : AlerterState

def RosterState.empty : RosterState := ⟨Table.empty, none, none⟩

/-- A cycle of the alerter, with all that it meets. -/
structure RosterCycle where
  profiles : ProfileTable
  content : AttentionTable
  orders : RosterOrders
  memberOrder : IterOrder String
  /-- How many writes of the debounce are done, when one of them fails. -/
  cut : Option Nat
  /-- The time at which the row of the last post is read. -/
  readAt : Int
  reads : Bool
  reply : Nat → Reply
  /-- The time at which the row is written. -/
  writtenAt : Int
  writes : Bool

structure RosterPost where
  fingerprint : String
  changed : Bool
  content : String
  arrived : List String
  delivery : Receipt
  readAt : Int
  writtenAt : Int

def dayInterval : Int := 86400 * microsPerSecond

/-- `last_post IS NULL OR last_post < NOW() - INTERVAL '24 hours'`. -/
def AlerterState.due (alerter : AlerterState) (now : Int) : Bool :=
  match alerter.lastPost with
  | none => true
  | some posted => posted < now - dayInterval

/-- What is read of the last post: its fingerprint, and whether another is due. -/
def RosterCycle.lastRead (cycle : RosterCycle) (alerter : AlerterState) : Option String × Bool :=
  if cycle.reads then (alerter.lastFingerprint, alerter.due cycle.readAt) else (none, true)

namespace RosterCycle

variable (cycle : RosterCycle) (state : RosterState)

def roster : Roster := currentFailureRoster cycle.profiles cycle.orders cycle.content

/-- The writes of `debounced_fingerprint`, in order. -/
def advanced : List (String × Hysteresis) :=
  (unionAddresses cycle.memberOrder cycle.roster.states state.members).map fun address =>
    (address, (state.members.hysteresis address).observe (cycle.roster.states.observed address))

def fingerprint : String :=
  (debouncedFingerprint cycle.memberOrder cycle.roster.states state.members).2

def changed : Bool := cycle.fingerprint state ≠ (cycle.lastRead state.alerter).1.getD ""

def post : RosterPost where
  fingerprint := cycle.fingerprint state
  changed := cycle.changed state
  content := rosterContent (cycle.changed state) cycle.roster.lines
  arrived := (postChunks cycle.reply (rosterContent (cycle.changed state) cycle.roster.lines)).1
  delivery := deliveryOf cycle.reply cycle.writes
    (rosterContent (cycle.changed state) cycle.roster.lines)
  readAt := cycle.readAt
  writtenAt := cycle.writtenAt

end RosterCycle

/-- `run_cycle`. -/
def runCycle (cycle : RosterCycle) (state : RosterState) : RosterState × Option RosterPost :=
  match cycle.cut with
  | some executed =>
    ({ state with
        members := ((cycle.advanced state).take executed).foldl AlertMembers.write state.members },
      none)
  | none =>
    let members := (debouncedFingerprint cycle.memberOrder cycle.roster.states state.members).1
    if !cycle.changed state ∧ !(cycle.lastRead state.alerter).2 then ({ state with members }, none)
    else
      let post := cycle.post state
      if (postChunks cycle.reply post.content).2 ≠ some true then ({ state with members }, some post)
      else if cycle.writes then
        (⟨members, some cycle.writtenAt, some post.fingerprint⟩, some post)
      else ({ state with members }, some post)

/-- A run of cycles, with what they post. -/
def runRosterCycles (state : RosterState) : List RosterCycle → RosterState × List RosterPost
  | [] => (state, [])
  | cycle :: rest =>
    let result := runCycle cycle state
    let later := runRosterCycles result.1 rest
    (later.1, result.2.toList ++ later.2)

/-- What a cycle comes to: the post it would make, and whether one is due. -/
def RosterCycle.look (cycle : RosterCycle) (state : RosterState) : Option (RosterPost × Bool) :=
  match cycle.cut with
  | some _ => none
  | none => some (cycle.post state, (cycle.lastRead state.alerter).2)

def rosterLooks (state : RosterState) : List RosterCycle → List (RosterPost × Bool)
  | [] => []
  | cycle :: rest => (cycle.look state).toList ++ rosterLooks (runCycle cycle state).1 rest

/-- The alerter over what its cycles come to. -/
def rosterAnnouncer : Announcer (RosterPost × Bool) String where
  seen look := look.1.fingerprint
  due look := look.2
  delivery look := look.1.delivery

/-- The posts that arrive, in part at least. -/
def postsOf (posts : List RosterPost) : List RosterPost :=
  posts.filter fun post => post.delivery ≠ .refused

def AlerterState.told (alerter : AlerterState) : String := alerter.lastFingerprint.getD ""

/-- A post says something new, or it comes a day after the one before. -/
def RosterPost.Follows (earlier later : RosterPost) : Prop :=
  earlier.fingerprint ≠ later.fingerprint ∨ earlier.writtenAt + dayInterval < later.readAt

section Posts

variable {cycle : RosterCycle} {state : RosterState} {cycles : List RosterCycle}

/-- A cycle that is not cut: the row is written when it speaks and the post counts. -/
theorem runCycle_whole (whole : cycle.cut = none) : ∃ members, runCycle cycle state =
    (⟨members,
      if (cycle.changed state ∨ (cycle.lastRead state.alerter).2) ∧
          (cycle.post state).delivery = .recorded then
        ⟨some cycle.writtenAt, some (cycle.fingerprint state)⟩
      else state.alerter⟩,
    if cycle.changed state ∨ (cycle.lastRead state.alerter).2 then some (cycle.post state)
    else none) := by
  refine ⟨(debouncedFingerprint cycle.memberOrder cycle.roster.states state.members).1, ?_⟩
  have recorded : (cycle.post state).delivery = .recorded ↔
      (postChunks cycle.reply (cycle.post state).content).2 = some true ∧ cycle.writes :=
    deliveryOf_eq_recorded_iff
  rw [runCycle, whole]
  dsimp only
  by_cases speaks : cycle.changed state ∨ (cycle.lastRead state.alerter).2
  · have loud : ¬ ((!cycle.changed state) = true ∧ (!(cycle.lastRead state.alerter).2) = true) := by
      simp only [Bool.not_eq_true', not_and_or, Bool.not_eq_false]
      exact speaks
    rw [if_neg loud, if_pos speaks]
    by_cases accepted : (postChunks cycle.reply (cycle.post state).content).2 = some true
    · rw [if_neg (not_not.mpr accepted)]
      by_cases writes : cycle.writes
      · rw [if_pos writes, if_pos ⟨speaks, recorded.mpr ⟨accepted, writes⟩⟩]
        rfl
      · rw [if_neg writes, if_neg fun both => writes (recorded.mp both.2).2]
    · rw [if_pos accepted, if_neg fun both => accepted (recorded.mp both.2).1]
  · have quiet : (!cycle.changed state) = true ∧ (!(cycle.lastRead state.alerter).2) = true := by
      simpa [not_or] using speaks
    rw [if_pos quiet, if_neg speaks, if_neg fun both => speaks both.1]

/-- A cycle cut short posts nothing and leaves the alerter as it was. -/
theorem runCycle_cut {executed : Nat} (cut : cycle.cut = some executed) :
    (runCycle cycle state).1.alerter = state.alerter ∧ (runCycle cycle state).2 = none := by
  rw [runCycle, cut]
  exact ⟨rfl, rfl⟩

/-- A cycle that can read the row is a look of the announcer. -/
theorem runCycle_look (reads : cycle.cut = none → cycle.reads) :
    (runCycle cycle state).1.alerter.told =
        rosterAnnouncer.after state.alerter.told (cycle.look state).toList ∧
      postsOf (runCycle cycle state).2.toList =
        (rosterAnnouncer.sent state.alerter.told (cycle.look state).toList).map Prod.fst := by
  cases cut : cycle.cut with
  | some executed =>
    rw [RosterCycle.look, cut, (runCycle_cut cut).2]
    refine ⟨?_, rfl⟩
    rw [(runCycle_cut cut).1]
    rfl
  | none =>
    obtain ⟨members, whole⟩ := @runCycle_whole cycle state cut
    have row : cycle.lastRead state.alerter =
        (state.alerter.lastFingerprint, state.alerter.due cycle.readAt) := if_pos (reads cut)
    have speaks : rosterAnnouncer.speaks state.alerter.told
        (cycle.post state, (cycle.lastRead state.alerter).2) = true ↔
          (cycle.changed state ∨ (cycle.lastRead state.alerter).2) := by
      rw [Announcer.speaks, Bool.or_eq_true, RosterCycle.changed, row]
      rfl
    have met : rosterAnnouncer.delivery (cycle.post state, (cycle.lastRead state.alerter).2) =
      (cycle.post state).delivery := rfl
    rw [RosterCycle.look, cut, whole]
    simp only [Option.toList_some, Announcer.after, List.foldl_cons, List.foldl_nil, Announcer.next,
      Announcer.sent, speaks, met]
    constructor
    · split <;> rfl
    · by_cases spoken : cycle.changed state = true ∨ (cycle.lastRead state.alerter).2 = true
      · by_cases refused : (cycle.post state).delivery = .refused <;>
          simp [postsOf, spoken, refused]
      · simp [postsOf, spoken]

/-- The posts of a run are what an announcer says at its looks. -/
theorem runRosterCycles_looks (reads : ∀ cycle ∈ cycles, cycle.cut = none → cycle.reads)
    (state : RosterState) : postsOf (runRosterCycles state cycles).2 =
      (rosterAnnouncer.sent state.alerter.told (rosterLooks state cycles)).map Prod.fst := by
  induction cycles generalizing state with
  | nil => rfl
  | cons cycle rest ih =>
    have step := @runCycle_look cycle state (reads cycle List.mem_cons_self)
    have later := ih (fun other member => reads other (List.mem_cons_of_mem _ member))
      (runCycle cycle state).1
    rw [runRosterCycles, rosterLooks, Announcer.sent_append, List.map_append, ← step.1, ← step.2,
      ← later]
    exact List.filter_append _ _

/-- What a cycle does that can read the row and whose post is written down if it arrives. -/
theorem runCycle_clean (reads : cycle.cut = none → cycle.reads)
    (clean : ∀ post ∈ (runCycle cycle state).2, post.delivery ≠ .unrecorded) :
    ((runCycle cycle state).1.alerter = state.alerter ∧ postsOf (runCycle cycle state).2.toList = []) ∨
    ∃ post, postsOf (runCycle cycle state).2.toList = [post] ∧
      (runCycle cycle state).1.alerter = ⟨some post.writtenAt, some post.fingerprint⟩ ∧
      (state.alerter.told ≠ post.fingerprint ∨
        ∀ posted ∈ state.alerter.lastPost, posted + dayInterval < post.readAt) := by
  cases cut : cycle.cut with
  | some executed =>
    rw [(runCycle_cut cut).2]
    exact .inl ⟨(runCycle_cut cut).1, rfl⟩
  | none =>
    obtain ⟨members, whole⟩ := @runCycle_whole cycle state cut
    have row : cycle.lastRead state.alerter =
        (state.alerter.lastFingerprint, state.alerter.due cycle.readAt) := if_pos (reads cut)
    rw [whole] at clean ⊢
    by_cases spoken : cycle.changed state = true ∨ (cycle.lastRead state.alerter).2 = true
    · simp only [spoken, true_and, if_true, Option.toList_some] at clean ⊢
      cases outcome : (cycle.post state).delivery with
      | unrecorded => exact absurd outcome (clean _ rfl)
      | refused => exact .inl ⟨if_neg (by decide), by simp [postsOf, outcome]⟩
      | recorded =>
        refine .inr ⟨cycle.post state, by simp [postsOf, outcome], if_pos rfl, ?_⟩
        rcases spoken with changed | due
        · rw [RosterCycle.changed, row] at changed
          exact .inl (Ne.symm (of_decide_eq_true changed))
        · rw [row, AlerterState.due] at due
          refine .inr fun posted last => ?_
          rw [Option.mem_def.mp last] at due
          have passed : posted < cycle.readAt - dayInterval := of_decide_eq_true due
          change posted + dayInterval < cycle.readAt
          omega
    · simp only [spoken, false_and, if_false, Option.toList_none]
      exact .inl ⟨trivial, rfl⟩

/-- A repeat is due: a day has passed since the row was written. -/
theorem follows_runRosterCycles (reads : ∀ cycle ∈ cycles, cycle.cut = none → cycle.reads)
    (clean : ∀ post ∈ (runRosterCycles state cycles).2, post.delivery ≠ .unrecorded) :
    (postsOf (runRosterCycles state cycles).2).IsChain RosterPost.Follows ∧
      ∀ post ∈ (postsOf (runRosterCycles state cycles).2).head?, state.alerter.told ≠ post.fingerprint ∨
        ∀ posted ∈ state.alerter.lastPost, posted + dayInterval < post.readAt := by
  induction cycles generalizing state with
  | nil => exact ⟨List.isChain_nil, by simp [runRosterCycles, postsOf]⟩
  | cons cycle rest ih =>
    rw [runRosterCycles] at clean ⊢
    have later := ih (fun other member => reads other (List.mem_cons_of_mem cycle member))
      fun post member => clean post (List.mem_append_right _ member)
    have apart : postsOf ((runCycle cycle state).2.toList ++
        (runRosterCycles (runCycle cycle state).1 rest).2) =
          postsOf (runCycle cycle state).2.toList ++
            postsOf (runRosterCycles (runCycle cycle state).1 rest).2 := List.filter_append _ _
    rw [apart]
    rcases runCycle_clean (reads cycle List.mem_cons_self) (fun post member =>
      clean post (List.mem_append_left _ (Option.mem_toList.mpr member))) with
      ⟨kept, silent⟩ | ⟨post, spoken, row, reason⟩
    · rw [kept] at later
      rw [silent]
      exact later
    · rw [row] at later
      rw [spoken, List.singleton_append, List.isChain_cons]
      refine ⟨⟨fun next first => ?_, later.1⟩, fun first same => ?_⟩
      · rcases later.2 next first with changed | passed
        · exact .inl changed
        · exact .inr (passed _ rfl)
      · exact Option.some.inj same ▸ reason

/-- Whatever was posted before, after a cycle whose post would count the last post is not older
than a day. -/
theorem lastPost_runCycle (whole : cycle.cut = none)
    (arrives : (cycle.post state).delivery = .recorded) (clock : cycle.readAt ≤ cycle.writtenAt) :
    ∃ posted ∈ (runCycle cycle state).1.alerter.lastPost, cycle.readAt - dayInterval ≤ posted := by
  have day : 0 < dayInterval := by decide
  obtain ⟨members, result⟩ := @runCycle_whole cycle state whole
  rw [result]
  by_cases spoken : cycle.changed state = true ∨ (cycle.lastRead state.alerter).2 = true
  · rw [if_pos ⟨spoken, arrives⟩]
    exact ⟨cycle.writtenAt, rfl, by omega⟩
  · rw [if_neg fun both => spoken both.1]
    have early : (cycle.lastRead state.alerter).2 = false := by
      simpa using fun due => spoken (.inr due)
    rw [RosterCycle.lastRead] at early
    split at early
    · rw [AlerterState.due] at early
      split at early
      · cases early
      · rename_i posted last
        exact ⟨posted, last, Int.not_lt.mp (of_decide_eq_false early)⟩
    · cases early

private theorem exists_look_of_post {post : RosterPost}
    (said : post ∈ (runRosterCycles state cycles).2) :
    ∃ look ∈ rosterLooks state cycles, look.1 = post := by
  induction cycles generalizing state with
  | nil => cases said
  | cons cycle rest ih =>
    rw [runRosterCycles] at said
    rw [rosterLooks]
    rcases List.mem_append.mp said with now | later
    · refine ⟨(post, (cycle.lastRead state.alerter).2), List.mem_append_left _ ?_, rfl⟩
      rw [Option.mem_toList] at now ⊢
      cases cut : cycle.cut with
      | some executed =>
        rw [(runCycle_cut cut).2] at now
        cases now
      | none =>
        obtain ⟨members, whole⟩ := @runCycle_whole cycle state cut
        rw [whole] at now
        dsimp only at now
        split at now
        · rw [RosterCycle.look, cut, Option.some.inj now]
        · cases now
    · obtain ⟨look, member, same⟩ := ih later
      exact ⟨look, List.mem_append_right _ member, same⟩

private theorem runRosterCycles_concat (state : RosterState) (cycles : List RosterCycle)
    (last : RosterCycle) : (runRosterCycles state (cycles ++ [last])).1 =
      (runCycle last (runRosterCycles state cycles).1).1 := by
  induction cycles generalizing state with
  | nil => rfl
  | cons cycle rest ih => exact ih _

/-- What the posts of a run are like. -/
structure Posted (cycles : List RosterCycle) : Prop where
  /-- Repeats apart, they are the changes of the fingerprint in the cycles whose post could
  arrive. -/
  changes :
    ((postsOf (runRosterCycles .empty cycles).2).map RosterPost.fingerprint).destutter' (· ≠ ·) "" =
      (rosterAnnouncer.heard (rosterLooks .empty cycles)).destutter' (· ≠ ·) ""
  /-- A repeat comes more than a day after the post before it. -/
  repeats : (postsOf (runRosterCycles .empty cycles).2).IsChain RosterPost.Follows
  /-- No cycle whose post could arrive leaves the last post older than a day. -/
  daily : ∀ before last, before ++ [last] <+: cycles → last.cut = none →
    (last.post (runRosterCycles .empty before).1).delivery = .recorded → last.readAt ≤ last.writtenAt →
      ∃ posted ∈ (runRosterCycles .empty (before ++ [last])).1.alerter.lastPost,
        last.readAt - dayInterval ≤ posted

/-- As long as the row can be read, and no post arrives without being written down. -/
theorem posted_runRosterCycles (reads : ∀ cycle ∈ cycles, cycle.cut = none → cycle.reads)
    (clean : ∀ look ∈ rosterLooks .empty cycles, look.1.delivery ≠ .unrecorded) :
    Posted cycles := by
  refine ⟨?_, (follows_runRosterCycles reads fun post said => ?_).1, ?_⟩
  · have unsaid : ∀ look ∈ rosterLooks .empty cycles,
        rosterAnnouncer.delivery look ≠ .unrecorded := clean
    rw [runRosterCycles_looks reads, List.map_map]
    exact Announcer.destutter_sent unsaid ""
  · obtain ⟨look, member, rfl⟩ := exists_look_of_post said
    exact clean look member
  · intro before last _ whole arrives clock
    rw [runRosterCycles_concat]
    exact lastPost_runCycle whole arrives clock

private theorem exists_post_of_look {look : RosterPost × Bool}
    (found : look ∈ rosterLooks state cycles) :
    ∃ cycle ∈ cycles, ∃ state, look.1 = cycle.post state := by
  induction cycles generalizing state with
  | nil => cases found
  | cons cycle rest ih =>
    rw [rosterLooks] at found
    rcases List.mem_append.mp found with now | later
    · rw [Option.mem_toList, RosterCycle.look] at now
      split at now
      · cases now
      · exact ⟨cycle, List.mem_cons_self, state, Option.some.inj now ▸ rfl⟩
    · obtain ⟨other, member, same⟩ := ih later
      exact ⟨other, List.mem_cons_of_mem _ member, same⟩

/-- A cycle at an hour, with a webhook that accepts. -/
def plainCycle (hour : Int) (content : AttentionTable) : RosterCycle where
  profiles := Table.empty
  content := content
  orders := ⟨.asInserted, .asInserted⟩
  memberOrder := .asInserted
  cut := none
  readAt := hour * 3600 * microsPerSecond
  reads := true
  reply _ := .accepted
  writtenAt := hour * 3600 * microsPerSecond + 1
  writes := true

/-- The posts of the plain cycles are as those of every run. -/
theorem posted_runRosterCycles_plain : Posted [plainCycle 0 Table.empty, plainCycle 1 badDataContent,
    plainCycle 2 badDataContent, plainCycle 27 badDataContent] := by
  refine posted_runRosterCycles (by simp [plainCycle]) fun look found => ?_
  have accepted (hour : Int) (content : AttentionTable) (state : RosterState) :
      ((plainCycle hour content).post state).delivery = .recorded := by
    simp only [RosterCycle.post, plainCycle]
    exact deliveryOf_accepted (fun _ => rfl) _
  have recorded : look.1.delivery = .recorded := by
    obtain ⟨cycle, member, state, same⟩ := exists_post_of_look found
    simp only [List.mem_cons, List.not_mem_nil, or_false] at member
    rw [same]
    rcases member with rfl | rfl | rfl | rfl <;> exact accepted _ _ _
  rw [recorded]
  decide

end Posts

end Foghorn.Probe

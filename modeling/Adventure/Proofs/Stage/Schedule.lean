import Adventure.Stage.Screen
import Mathlib.Data.List.Basic
import Mathlib.Data.List.Induction
import Mathlib.Data.List.TakeWhile
import Mathlib.Data.Nat.Find

/-! Frames and scheduled input of a stage over all that it is asked for. The frames are counted by the last of them, though
only some are remembered. Input that is scheduled takes effect once, at the first look at the events that comes behind it
and when enough frames have been shown; what is due at one look is taken by its frame, and by the order of scheduling among
the input of one frame. -/

namespace Adventure.Stage

/-- What can be asked of a stage. -/
inductive Request where
  | schedule (i : ScheduledInput)
  | present
  | events
  | palette (colors : ByteArray) (n : Nat)
  | fill (x y w h : Int) (c : UInt8)
  | darken (x y w h : Int)
  | copy (x y w h : Int) (buffer : ByteArray) (pitch : Nat) (transparent : Bool)
  | cover (w h : Nat)
  | uncover
  | overlay (buffer : ByteArray) (pitch : Nat)
  | sleep (ms : UInt32)
  | startAudio
  | stopAudio
  | hold (i : Input)
  | quit
  | quitAfter (n : Nat)

def perform (s : Stage) : Request → Stage
  | .schedule i => s.scheduleInput i
  | .present => s.present
  | .events => s.processEvents
  | .palette colors n => s.setPalette colors n
  | .fill x y w h c => s.fillRect x y w h c
  | .darken x y w h => s.darkenRect x y w h
  | .copy x y w h buffer pitch transparent => s.copyRect x y w h buffer pitch transparent
  | .cover w h => s.beginOverlay w h
  | .uncover => s.endOverlay
  | .overlay buffer pitch => s.setOverlay buffer pitch
  | .sleep ms => s.sleep ms
  | .startAudio => s.startAudio
  | .stopAudio => s.stopAudio
  | .hold input => { s with input }
  | .quit => { s with quit := true }
  | .quitAfter n => { s with quitAt := some n }

/-- The request shows a frame. -/
def Request.shows : Request → Bool
  | .present => true
  | _ => false

/-- A stage after some requests. -/
def run (s : Stage) (requests : List Request) : Stage := requests.foldl perform s

theorem run_snoc (s : Stage) (rs : List Request) (r : Request) : s.run (rs ++ [r]) = (s.run rs).perform r := by
  simp [run]

/-! ### One request -/

/-- The frame that is shown next. -/
def record (s : Stage) : FrameRecord :=
  ⟨s.presented, s.now, s.overlay.isSome, if s.overlay.isSome then s.overlayFrame else s.screen⟩

/-- So many frames are enough for a scheduled input. -/
def dueBy (n : Nat) (i : ScheduledInput) : Bool := decide (i.atFrame ≤ n)

theorem takeDue_eq (n : Nat) (queue : List ScheduledInput) (input : Input) :
    takeDue n queue input =
      (((queue.takeWhile (dueBy n)).getLast?.map (·.input)).getD input, queue.dropWhile (dueBy n)) := by
  induction queue generalizing input with
  | nil => rfl
  | cons i queue ih =>
    by_cases h : i.atFrame ≤ n
    · have hdue : dueBy n i = true := decide_eq_true h
      rw [takeDue, if_neg (Nat.not_lt.mpr h), ih, List.takeWhile_cons_of_pos hdue, List.dropWhile_cons_of_pos hdue,
        List.getLast?_cons]
      cases (queue.takeWhile (dueBy n)).getLast? <;> rfl
    · have hearly : ¬dueBy n i = true := by simpa [dueBy] using h
      rw [takeDue, if_pos (Nat.lt_of_not_le h), List.takeWhile_cons_of_neg hearly, List.dropWhile_cons_of_neg hearly]
      rfl

theorem processEvents_schedule (s : Stage) : s.processEvents.schedule = s.schedule.dropWhile (dueBy s.presented) :=
  congrArg Prod.snd (takeDue_eq s.presented s.schedule s.input)

theorem processEvents_input (s : Stage) :
    s.processEvents.input = ((s.schedule.takeWhile (dueBy s.presented)).getLast?.map (·.input)).getD s.input :=
  congrArg Prod.fst (takeDue_eq s.presented s.schedule s.input)

theorem schedule_changeRect (s : Stage) (f : Rgb → Rgb) (x y w h : Int) :
    (s.changeRect f x y w h).schedule = s.schedule ∧ (s.changeRect f x y w h).recent = s.recent := by
  unfold changeRect
  split <;> exact ⟨rfl, rfl⟩

theorem schedule_copyRect (s : Stage) (x y w h : Int) (buffer : ByteArray) (pitch : Nat) (transparent : Bool) :
    (s.copyRect x y w h buffer pitch transparent).schedule = s.schedule ∧
      (s.copyRect x y w h buffer pitch transparent).recent = s.recent := by
  unfold copyRect
  split <;> exact ⟨rfl, rfl⟩

theorem schedule_setOverlay (s : Stage) (buffer : ByteArray) (pitch : Nat) :
    (s.setOverlay buffer pitch).schedule = s.schedule ∧ (s.setOverlay buffer pitch).recent = s.recent := by
  unfold setOverlay
  split <;> exact ⟨rfl, rfl⟩

theorem schedule_sleep (s : Stage) (ms : UInt32) :
    (s.sleep ms).schedule = s.schedule ∧ (s.sleep ms).recent = s.recent := by
  unfold sleep
  dsimp only
  split <;> exact ⟨rfl, rfl⟩

/-- What a request makes of the schedule and of the frames that are remembered. -/
theorem perform_eq (s : Stage) (r : Request) :
    (s.perform r).schedule = (match r with
      | .schedule i => insertInput i s.schedule
      | .events => s.schedule.dropWhile (dueBy s.presented)
      | _ => s.schedule) ∧
    (s.perform r).recent = if r.shows then s.record :: s.recent.take (maxRecent - 1) else s.recent := by
  cases r with
  | events => exact ⟨s.processEvents_schedule, rfl⟩
  | fill x y w h c => exact s.schedule_changeRect _ x y w h
  | darken x y w h => exact s.schedule_changeRect _ x y w h
  | copy x y w h buffer pitch transparent => exact s.schedule_copyRect x y w h buffer pitch transparent
  | overlay buffer pitch => exact s.schedule_setOverlay buffer pitch
  | sleep ms => exact s.schedule_sleep ms
  | _ => exact ⟨rfl, rfl⟩

/-! ### Frames -/

/-- How many frames some requests show. -/
def frames (rs : List Request) : Nat := rs.countP Request.shows

/-- The frames that some requests show, in their order. -/
def records (s : Stage) : List Request → List FrameRecord
  | [] => []
  | r :: rs => (if r.shows then [s.record] else []) ++ records (s.perform r) rs

theorem frames_snoc (rs : List Request) (r : Request) : frames (rs ++ [r]) = frames rs + if r.shows then 1 else 0 := by
  rw [frames, List.countP_append, List.countP_singleton]
  rfl

theorem records_snoc (s : Stage) (rs : List Request) (r : Request) :
    s.records (rs ++ [r]) = s.records rs ++ if r.shows then [(s.run rs).record] else [] := by
  induction rs generalizing s with
  | nil => simp [records, run]
  | cons q rs ih => simp [records, run, ih]

theorem length_records (s : Stage) (rs : List Request) : (s.records rs).length = frames rs := by
  induction rs using List.reverseRecOn with
  | nil => rfl
  | append_singleton rs r ih =>
    rw [records_snoc, frames_snoc, List.length_append, ih]
    split <;> rfl

/-- The last frames are remembered, and each of them knows its number. -/
theorem run_recent {s : Stage} (hs : s.recent = []) (rs : List Request) :
    (s.run rs).recent = (s.records rs).reverse.take maxRecent ∧ (s.run rs).presented = frames rs ∧
      (s.records rs).map (·.index) = List.range (frames rs) := by
  induction rs using List.reverseRecOn with
  | nil => exact ⟨hs, by simp [run, presented, hs, frames], rfl⟩
  | append_singleton rs r ih =>
    obtain ⟨hrecent, hpresented, hindex⟩ := ih
    have hstep := ((s.run rs).perform_eq r).2
    rw [run_snoc, records_snoc, frames_snoc, presented, hstep]
    split
    · refine ⟨?_, ?_, ?_⟩
      · rw [hrecent, List.take_take, List.reverse_append]
        rfl
      · exact congrArg (· + 1) hpresented
      · rw [List.map_append, hindex, List.range_succ, ← hpresented]
        rfl
    · rw [List.append_nil]
      exact ⟨hrecent, hpresented, hindex⟩

/-! ### Scheduled input -/

/-- Of two scheduled inputs, each with the place of the request that scheduled it, the one of the earlier frame comes first,
and of one frame the one that was scheduled first. -/
def Before (a b : Nat × ScheduledInput) : Prop :=
  a.2.atFrame < b.2.atFrame ∨ a.2.atFrame = b.2.atFrame ∧ a.1 < b.1

/-- The input that was scheduled at place `p` is still to come: no look at the events behind that place came late enough. -/
structure Waits (rs : List Request) (p : Nat) (i : ScheduledInput) : Prop where
  scheduled : rs[p]? = some (.schedule i)
  early : ∀ j, p < j → rs[j]? = some .events → frames (rs.take j) < i.atFrame

/-- The look at the events at place `k` is the first one behind place `p` that comes late enough for the input that was
scheduled there. -/
structure TakenAt (rs : List Request) (p : Nat) (i : ScheduledInput) (k : Nat) : Prop where
  scheduled : rs[p]? = some (.schedule i)
  look : rs[k]? = some .events
  behind : p < k
  late : i.atFrame ≤ frames (rs.take k)
  first : ∀ j, p < j → j < k → rs[j]? = some .events → frames (rs.take j) < i.atFrame

variable {rs : List Request} {p k : Nat} {i : ScheduledInput}

/-- What waits behind one more request waited before it or is new. -/
theorem waits_snoc (r : Request) : Waits (rs ++ [r]) p i ↔
    Waits rs p i ∧ (r = .events → frames rs < i.atFrame) ∨ p = rs.length ∧ r = .schedule i := by
  have hend : (rs ++ [r])[rs.length]? = some r := List.getElem?_concat_length
  have hfront {j : Nat} (hj : j < rs.length) : (rs ++ [r])[j]? = rs[j]? := List.getElem?_append_left hj
  have htake {j : Nat} (hj : j ≤ rs.length) : (rs ++ [r]).take j = rs.take j := List.take_append_of_le_length hj
  have hplace {j : Nat} {q : Request} (h : (rs ++ [r])[j]? = some q) : j < rs.length ∨ j = rs.length := by
    have hlt := (List.getElem?_eq_some_iff.mp h).1
    rw [List.length_append, List.length_singleton] at hlt
    omega
  constructor
  · rintro ⟨hscheduled, hearly⟩
    rcases hplace hscheduled with hp | rfl
    · refine Or.inl ⟨⟨hfront hp ▸ hscheduled, fun j hj hlook => ?_⟩, fun hr => ?_⟩
      · have hj' := (List.getElem?_eq_some_iff.mp hlook).1
        rw [← htake hj'.le]
        exact hearly j hj (hfront hj' ▸ hlook)
      · have hlast := hearly rs.length hp (hr ▸ hend)
        rwa [htake le_rfl, List.take_length] at hlast
    · rw [hend] at hscheduled
      exact Or.inr ⟨rfl, Option.some.inj hscheduled⟩
  · rintro (⟨⟨hscheduled, hearly⟩, hr⟩ | ⟨rfl, rfl⟩)
    · refine ⟨hfront (List.getElem?_eq_some_iff.mp hscheduled).1 ▸ hscheduled, fun j hj hlook => ?_⟩
      rcases hplace hlook with hj' | rfl
      · rw [htake hj'.le]
        exact hearly j hj (hfront hj' ▸ hlook)
      · rw [hend] at hlook
        rw [htake le_rfl, List.take_length]
        exact hr (Option.some.inj hlook)
    · refine ⟨hend, fun j hj hlook => ?_⟩
      rcases hplace hlook with hj' | rfl <;> omega

/-- What waits is taken when its frame has come. -/
theorem takenAt_iff (hk : rs[k]? = some .events) :
    TakenAt rs p i k ↔ Waits (rs.take k) p i ∧ i.atFrame ≤ frames (rs.take k) := by
  have hfront {j : Nat} (hj : j < k) : (rs.take k)[j]? = rs[j]? := List.getElem?_take_of_lt hj
  have htake {j : Nat} (hj : j < k) : (rs.take k).take j = rs.take j := by rw [List.take_take, Nat.min_eq_left hj.le]
  have hplace {j : Nat} {q : Request} (h : (rs.take k)[j]? = some q) : j < k := by
    have hlt := (List.getElem?_eq_some_iff.mp h).1
    rw [List.length_take] at hlt
    omega
  constructor
  · rintro ⟨hscheduled, -, hbehind, hlate, hfirst⟩
    refine ⟨⟨hfront hbehind ▸ hscheduled, fun j hj hlook => ?_⟩, hlate⟩
    have hj' := hplace hlook
    rw [htake hj']
    exact hfirst j hj hj' (hfront hj' ▸ hlook)
  · rintro ⟨⟨hscheduled, hearly⟩, hlate⟩
    have hp := hplace hscheduled
    refine ⟨hfront hp ▸ hscheduled, hk, hp, hlate, fun j hj hj' hlook => ?_⟩
    rw [← htake hj']
    exact hearly j hj (hfront hj' ▸ hlook)

/-- New input goes behind all that comes no later. -/
theorem exists_insert {w : List (Nat × ScheduledInput)} (hw : w.Pairwise Before) (hp : ∀ x ∈ w, x.1 < p)
    (i : ScheduledInput) :
    ∃ w' : List (Nat × ScheduledInput), insertInput i (w.map (·.2)) = w'.map (·.2) ∧ w'.Pairwise Before ∧
      ∀ x, x ∈ w' ↔ x = (p, i) ∨ x ∈ w := by
  induction w with
  | nil => exact ⟨[(p, i)], rfl, List.pairwise_singleton _ _, by simp⟩
  | cons a w ih =>
    obtain ⟨hhead, hrest⟩ := List.pairwise_cons.mp hw
    by_cases h : i.atFrame < a.2.atFrame
    · refine ⟨(p, i) :: a :: w, by simp [insertInput, h], List.pairwise_cons.mpr ⟨fun b hb => ?_, hw⟩, by simp⟩
      rcases List.mem_cons.mp hb with rfl | hb
      · exact Or.inl h
      · have hle := hhead b hb
        unfold Before at hle ⊢
        dsimp only
        omega
    · obtain ⟨w', heq, hw', hmem⟩ := ih hrest fun x hx => hp x (List.mem_cons_of_mem _ hx)
      refine ⟨a :: w', by simp [insertInput, h, heq], List.pairwise_cons.mpr ⟨fun b hb => ?_, hw'⟩, fun x => ?_⟩
      · rcases (hmem b).mp hb with rfl | hb
        · have hbefore := hp a List.mem_cons_self
          unfold Before
          dsimp only
          omega
        · exact hhead b hb
      · rw [List.mem_cons, List.mem_cons, hmem]
        exact or_left_comm

/-- In their order, what is due stands in front of what is not. -/
theorem split_due {w : List (Nat × ScheduledInput)} (hw : w.Pairwise Before) (n : Nat) :
    (w.map (·.2)).takeWhile (dueBy n) = (w.filter fun x => dueBy n x.2).map (·.2) ∧
      (w.map (·.2)).dropWhile (dueBy n) = (w.filter fun x => !dueBy n x.2).map (·.2) := by
  induction w with
  | nil => exact ⟨rfl, rfl⟩
  | cons a w ih =>
    obtain ⟨hhead, hrest⟩ := List.pairwise_cons.mp hw
    by_cases h : dueBy n a.2 = true
    · simpa [h] using ih hrest
    · have hlater : ∀ b ∈ a :: w, ¬dueBy n b.2 = true := by
        intro b hb
        rcases List.mem_cons.mp hb with rfl | hb
        · exact h
        · have hle := hhead b hb
          unfold Before at hle
          simp only [dueBy, decide_eq_true_eq] at h ⊢
          omega
      have hall : (a :: w).filter (fun x => !dueBy n x.2) = a :: w :=
        List.filter_eq_self.mpr fun b hb => by simpa using hlater b hb
      rw [hall, List.filter_eq_nil_iff.mpr hlater, List.map_cons]
      exact ⟨List.takeWhile_cons_of_neg h, List.dropWhile_cons_of_neg h⟩

variable {s : Stage}

/-- The schedule holds what waits, in its order. -/
theorem exists_waiting (hrecent : s.recent = []) (hschedule : s.schedule = []) (rs : List Request) :
    ∃ w : List (Nat × ScheduledInput), (s.run rs).schedule = w.map (·.2) ∧ w.Pairwise Before ∧
      ∀ p i, (p, i) ∈ w ↔ Waits rs p i := by
  induction rs using List.reverseRecOn with
  | nil => exact ⟨[], hschedule, List.Pairwise.nil, fun p i => iff_of_false (by simp) fun h => nomatch h.scheduled⟩
  | append_singleton rs r ih =>
    obtain ⟨w, heq, hw, hmem⟩ := ih
    have hstep := ((s.run rs).perform_eq r).1
    rw [run_snoc]
    cases r with
    | schedule i =>
      have hplaces : ∀ x ∈ w, x.1 < rs.length := fun x hx =>
        (List.getElem?_eq_some_iff.mp ((hmem x.1 x.2).mp hx).scheduled).1
      obtain ⟨w', heq', hw', hmem'⟩ := exists_insert hw hplaces i
      refine ⟨w', by rw [hstep, ← heq', heq], hw', fun p j => ?_⟩
      rw [hmem', hmem, waits_snoc]
      simp [or_comm, eq_comm]
    | events =>
      refine ⟨w.filter fun x => !dueBy (frames rs) x.2, ?_, hw.filter _, fun p j => ?_⟩
      · rw [hstep, heq, (run_recent hrecent rs).2.1]
        exact (split_due hw _).2
      · rw [waits_snoc, List.mem_filter, hmem]
        simp [dueBy]
    | _ =>
      refine ⟨w, by rw [hstep, heq], hw, fun p j => ?_⟩
      rw [hmem, waits_snoc]
      simp

/-- A look at the events takes what waits and is due, and leaves the input that it took last. -/
theorem exists_taken (hrecent : s.recent = []) (hschedule : s.schedule = []) (hk : rs[k]? = some .events) :
    ∃ taken : List (Nat × ScheduledInput),
      (s.run (rs.take k)).schedule = taken.map (·.2) ++ (s.run (rs.take (k + 1))).schedule ∧
      (s.run (rs.take (k + 1))).input = (taken.getLast?.map (·.2.input)).getD (s.run (rs.take k)).input ∧
      taken.Pairwise Before ∧ ∀ p i, (p, i) ∈ taken ↔ TakenAt rs p i k := by
  have hstep : s.run (rs.take (k + 1)) = (s.run (rs.take k)).processEvents := by
    rw [List.take_add_one, hk]
    exact run_snoc s _ .events
  obtain ⟨w, heq, hw, hmem⟩ := exists_waiting hrecent hschedule (rs.take k)
  have hpresented := (run_recent hrecent (rs.take k)).2.1
  obtain ⟨hfront, -⟩ := split_due hw (frames (rs.take k))
  refine ⟨w.filter fun x => dueBy (frames (rs.take k)) x.2, ?_, ?_, hw.filter _, fun p i => ?_⟩
  · rw [hstep, processEvents_schedule, heq, hpresented, ← hfront, List.takeWhile_append_dropWhile]
  · rw [hstep, processEvents_input, heq, hpresented, hfront, List.getLast?_map, Option.map_map]
    rfl
  · rw [List.mem_filter, hmem, takenAt_iff hk]
    simp [dueBy]

theorem TakenAt.unique {k' : Nat} (h : TakenAt rs p i k) (h' : TakenAt rs p i k') : k' = k := by
  rcases lt_trichotomy k' k with hlt | heq | hlt
  · exact absurd (h.first k' h'.behind hlt h'.look) (Nat.not_lt.mpr h'.late)
  · exact heq
  · exact absurd (h'.first k h.behind hlt h.look) (Nat.not_lt.mpr h.late)

/-- Of the looks at the events that come late enough there is a first one. -/
theorem exists_takenAt (hp : rs[p]? = some (.schedule i))
    (h : ∃ j, p < j ∧ rs[j]? = some .events ∧ i.atFrame ≤ frames (rs.take j)) : ∃ k, TakenAt rs p i k := by
  classical
  obtain ⟨hbehind, hlook, hlate⟩ := Nat.find_spec h
  refine ⟨Nat.find h, hp, hlook, hbehind, hlate, fun j hj hj' hlook' => ?_⟩
  exact Nat.lt_of_not_le fun hle => Nat.find_min h hj' ⟨hj, hlook', hle⟩

/-- Whatever is asked of a new stage, the number of frames that were shown is that of the requests to show one, though only
the last frames are remembered, which are numbered on. Each look at the events takes from the front of the schedule, by their
frames and then by the order of scheduling, just the inputs for which it is the first look that came behind them and late
enough, and the last of these is the input from then on; so each input is taken once as soon as there is such a look. -/
theorem inputs_taken_once (rate : Nat) (rs : List Request) :
    ((ofRate rate).run rs).presented = frames rs ∧
      ((ofRate rate).run rs).recent.reverse = ((ofRate rate).records rs).drop (frames rs - 1024) ∧
      ((ofRate rate).records rs).map (·.index) = List.range (frames rs) ∧
      (∀ k, rs[k]? = some .events → ∃ taken : List (Nat × ScheduledInput),
        ((ofRate rate).run (rs.take k)).schedule = taken.map (·.2) ++ ((ofRate rate).run (rs.take (k + 1))).schedule ∧
        ((ofRate rate).run (rs.take (k + 1))).input =
          (taken.getLast?.map (·.2.input)).getD ((ofRate rate).run (rs.take k)).input ∧
        taken.Pairwise Before ∧ ∀ p i, (p, i) ∈ taken ↔ TakenAt rs p i k) ∧
      ∀ p i, rs[p]? = some (.schedule i) →
        (∃ j, p < j ∧ rs[j]? = some .events ∧ i.atFrame ≤ frames (rs.take j)) → ∃! k, TakenAt rs p i k := by
  have hrecent : (ofRate rate).recent = [] := rfl
  obtain ⟨hlast, hpresented, hindex⟩ := run_recent hrecent rs
  refine ⟨hpresented, ?_, hindex, fun k hk => exists_taken hrecent rfl hk, fun p i hp hlook => ?_⟩
  · rw [hlast, List.reverse_take, List.reverse_reverse, List.length_reverse, length_records]
    rfl
  · obtain ⟨k, hk⟩ := exists_takenAt hp hlook
    exact ⟨k, hk, fun _ hk' => hk.unique hk'⟩

/-- Input for the second frame is taken behind input for the first one that was scheduled later. -/
example : let rs : List Request := [.schedule ⟨1, { space := true }⟩, .events, .schedule ⟨0, { enter := true }⟩, .present,
      .events]
    ((ofRate 22050).run (rs.take 2)).input = {} ∧ ((ofRate 22050).run rs).input = { space := true } ∧
      ((ofRate 22050).run rs).schedule = [] := by
  decide

end Adventure.Stage

import Adventure.Proofs.Game.Ground

/-! Loading movies and dropping them, as far as the tables of movies are concerned. A movie is
put behind those that are there, or else nothing of it but sounds and objects; what is dropped
is dropped from the end of each table. -/

namespace Adventure

namespace Stock

/-- The stock in which the first movie of a scene is put. -/
def started (s : Stock) : Stock :=
  if s.loaded = .nothing then { s with motions := #[], frames := #[], objectsCount := 0, loaded := .background } else s

theorem started_animations (s : Stock) : s.started.animations = s.animations := by
  unfold started
  split <;> rfl

theorem started_sounds (s : Stock) : s.started.sounds = s.sounds := by
  unfold started
  split <;> rfl

def addMotion (anim : Nat) (s : Stock) (frames : List SpriteFrame) : Stock :=
  { s with
    motions := s.motions.push ⟨Int16.ofNat s.frames.size, Int16.ofNat frames.length, Int16.ofNat anim⟩
    frames := s.frames ++ frames.toArray }

def addMotions (anim : Nat) (bank : SpriteBank) (s : Stock) : Stock := bank.motions.foldl (addMotion anim) s

/-- Sounds and objects have no part in adding motions. -/
theorem addMotions_with (anim : Nat) (bank : SpriteBank) (s : Stock) (sounds : Array String) (n : Nat) :
    addMotions anim bank { s with sounds, objectsCount := n } =
      { addMotions anim bank s with sounds, objectsCount := n } := by
  unfold addMotions
  generalize bank.motions = l
  induction l generalizing s with
  | nil => rfl
  | cons frames l ih => exact ih (s.addMotion anim frames)

theorem addMotions_animations (anim : Nat) (bank : SpriteBank) (s : Stock) :
    (s.addMotions anim bank).animations = s.animations := by
  unfold addMotions
  generalize bank.motions = l
  induction l generalizing s with
  | nil => rfl
  | cons frames l ih => exact ih (s.addMotion anim frames)

/-- A movie and its sprite bank behind what is there. -/
def append (name : String) (movie : Movie) (bank : SpriteBank) (s : Stock) : Stock where
  animations := s.animations.push {
    name := Text.lower name
    firstMotion := Int16.ofNat s.motions.size
    motionsCount := Int16.ofNat bank.motions.length
    firstObject := Int16.ofNat s.objectsCount
    objectsCount := Int16.ofNat movie.objects.length
    firstSound := Int16.ofNat s.sounds.size
    soundsCount := Int16.ofNat movie.sounds.length
    script := movie.script
    unused := movie.unused }
  motions := (s.addMotions s.animations.size bank).motions
  frames := (s.addMotions s.animations.size bank).frames
  sounds := s.sounds ++ movie.sounds.toArray
  objectsCount := s.objectsCount + movie.objects.length
  loaded := .movies

/-- The animation of a movie whose parts have been put behind what was there before. -/
def withAnimation (name : String) (movie : Movie) (bank : SpriteBank) (before s : Stock) : Stock :=
  { s with
    animations := s.animations.push {
      name := Text.lower name
      firstMotion := Int16.ofNat before.motions.size
      motionsCount := Int16.ofNat bank.motions.length
      firstObject := Int16.ofNat before.objectsCount
      objectsCount := Int16.ofNat (s.objectsCount - before.objectsCount)
      firstSound := Int16.ofNat before.sounds.size
      soundsCount := Int16.ofNat movie.sounds.length
      script := movie.script
      unused := movie.unused }
    loaded := .movies }

theorem withAnimation_added (name : String) (movie : Movie) (bank : SpriteBank) (s : Stock) :
    withAnimation name movie bank s
      { s.addMotions s.animations.size bank with
        sounds := s.sounds ++ movie.sounds.toArray, objectsCount := s.objectsCount + movie.objects.length } =
      s.append name movie bank := by
  simp only [withAnimation, append, addMotions_animations, Nat.add_sub_cancel_left]

/-- There is room for a movie and its sprite bank. -/
structure Fits (movie : Movie) (bank : SpriteBank) (s : Stock) : Prop where
  animations : s.animations.size < maxAnimations
  motions : s.motions.size + bank.motions.length ≤ maxMotions
  frames : s.frames.size + bank.framesCount ≤ maxFrames
  sounds : s.sounds.size + movie.sounds.length ≤ maxSounds

/-- What a movie that was not put in can leave behind: its sounds, and some of its objects. -/
def Stopped (s s' : Stock) : Prop :=
  s' = s ∨ ∃ (extra : List String) (n : Nat), (extra = [] ∨ s.sounds.size + extra.length ≤ maxSounds) ∧
    s' = { s.started with sounds := s.sounds ++ extra.toArray, objectsCount := n }

def empty : Stock := ⟨#[], #[], #[], #[], 0, .nothing⟩

/-- Where the frames of the last motion end. -/
def framesEnd (motions : Array Motion) : Nat :=
  match motions.back? with
  | some m => (m.firstFrame.toInt + m.count.toInt).toNat
  | none => 0

/-- The animations up to the given one, with what is theirs. -/
def keepUpTo (s : Stock) (anim : Fin s.animations.size) : Stock :=
  let a := s.animations[anim]
  let motions := s.motions.take (a.firstMotion.toInt + a.motionsCount.toInt).toNat
  { animations := s.animations.take (anim + 1)
    motions
    frames := s.frames.take (framesEnd motions)
    sounds := s.sounds.take (a.firstSound.toInt + a.soundsCount.toInt).toNat
    objectsCount := min (a.firstObject.toInt + a.objectsCount.toInt).toNat maxObjects
    loaded := .movies }

end Stock

namespace SceneTables

theorem stock_clearBoxes (t : SceneTables) : t.clearBoxes.stock = t.stock :=
  same_foldl stock _ t fun _ _ => rfl

theorem stock_resetUnused (t : SceneTables) : t.resetUnused.stock = t.stock :=
  same_foldl stock _ t fun _ _ => rfl

theorem stock_dropAll (t : SceneTables) : t.dropAll.stock = Stock.empty := by
  rw [dropAll, stock_clearBoxes, stock_resetUnused]
  rfl

theorem stock_keepUpTo (t : SceneTables) (anim : Fin t.animations.size) :
    (t.keepUpTo anim).stock = t.stock.keepUpTo anim := by
  rw [keepUpTo, stock_clearBoxes, stock_resetUnused]
  rfl

theorem stock_addMotions (anim : Nat) (bank : SpriteBank) (t : SceneTables) :
    (bank.motions.foldl (addMotion anim) t).stock = t.stock.addMotions anim bank := by
  unfold Stock.addMotions
  generalize bank.motions = l
  induction l generalizing t with
  | nil => rfl
  | cons frames l ih => exact ih (addMotion anim t frames)

/-! ### The steps of loading -/

theorem addSounds_leads (names : List String) (t : SceneTables) :
    Leads (addSounds names) t
      (fun _ u => t.sounds.size + names.length ≤ maxSounds ∧ u.stock = { t.stock with sounds := t.sounds ++ names.toArray })
      (fun u => u = t) := by
  change Leads (if maxSounds < t.sounds.size + names.length then
    (throw (.full .sounds) : M PUnit) >>= fun _ => modify _ else modify _) t _ _
  split
  · exact rfl
  · rename_i h
    exact ⟨Nat.le_of_not_lt h, rfl⟩

theorem addBox_stock (b : MovieBox) : Leaves stock (addBox b) := by
  have hsame := Chains.same stock
  have place : Leaves stock (do
      let n := (← get).boxCount b.group
      if boxesPerGroup ≤ n then throw (.full .boxes)
      modify fun t =>
        setBoxCount b.group (n + 1) (t.modifyBox b.group n fun old =>
          { old with state := b.state, x₁ := b.x₁, y₁ := b.y₁, x₂ := b.x₂, y₂ := b.y₂ }) : M Unit) := by
    refine hsame.bind hsame.get fun t => ?_
    dsimp only
    split
    · exact hsame.bind (hsame.fault _) fun _ u => rfl
    · exact fun u => rfl
  unfold addBox
  split
  · exact hsame.bind (hsame.fault _) fun _ => place
  · exact place

theorem addBoxes_stock (l : List MovieBox) : Leaves stock (addBoxes l) := by
  have hsame := Chains.same stock
  induction l with
  | nil => exact hsame.value _
  | cons b l ih => exact hsame.bind (addBox_stock b) fun _ => ih

theorem addObject_leads (motionInit : Int16) (o : MovieObject) (t : SceneTables) :
    Leads (addObject motionInit o) t
      (fun _ u => t.objectsCount < maxObjects ∧ u.stock = { t.stock with objectsCount := t.stock.objectsCount + 1 })
      (fun u => u = t) := by
  change Leads (if maxObjects ≤ t.objectsCount then _ else
    if (t.findObject? o.name).isSome then _ else modify _ : M Unit) t _ _
  split
  · exact rfl
  · rename_i h
    split
    · exact rfl
    · exact ⟨Nat.lt_of_not_le h, rfl⟩

/-- There is room for objects behind those that are there. -/
def Room (count more : Nat) : Prop := count ≤ maxObjects → count + more ≤ maxObjects

/-- Objects change how many of them there are, and nothing else that movies bring. -/
theorem addObjects_leads (motionInit : Int16) (l : List MovieObject) (t : SceneTables) :
    Leads (addObjects motionInit l) t
      (fun _ u => Room t.objectsCount l.length ∧
        u.stock = { t.stock with objectsCount := t.stock.objectsCount + l.length })
      (fun u => ∃ n, u.stock = { t.stock with objectsCount := n }) := by
  induction l generalizing t with
  | nil => exact ⟨id, rfl⟩
  | cons o l ih =>
    refine Leads.bind ((addObject_leads motionInit o t).mono (fun _ u hu => ?_) fun u hu => ?_)
    · obtain ⟨hlt, hu⟩ := hu
      refine (ih u).mono (fun _ v hv => ⟨fun _ => ?_, ?_⟩) fun v hv => ?_
      · have hcount : u.objectsCount = t.objectsCount + 1 := congrArg Stock.objectsCount hu
        have hroom : u.objectsCount + l.length ≤ maxObjects := hv.1 (hcount ▸ hlt)
        rw [List.length_cons]
        omega
      · rw [hv.2, hu, List.length_cons, Nat.add_assoc, Nat.add_comm 1]
      · obtain ⟨n, hn⟩ := hv
        exact ⟨n, by rw [hn, hu]⟩
    · exact ⟨t.objectsCount, by rw [hu]; rfl⟩

theorem addBank_leads (anim : Nat) (bank : SpriteBank) (t : SceneTables) :
    Leads (addBank anim bank) t
      (fun _ u => t.motions.size + bank.motions.length ≤ maxMotions ∧
        t.frames.size + bank.framesCount ≤ maxFrames ∧ u.stock = t.stock.addMotions anim bank)
      (fun u => u = t) := by
  change Leads (if maxMotions < t.motions.size + bank.motions.length then _ else
    if maxFrames < t.frames.size + bank.framesCount then _ else modify _ : M Unit) t _ _
  split
  · exact rfl
  · rename_i hm
    split
    · exact rfl
    · rename_i hf
      exact ⟨Nat.le_of_not_lt hm, Nat.le_of_not_lt hf, stock_addMotions anim bank t⟩

/-- What a movie brings besides its sprites. -/
theorem addParts_leads (movie : Movie) (motionInit : Int16) (t : SceneTables) :
    Leads (do addSounds movie.sounds; addBoxes movie.boxes; addObjects motionInit movie.objects : M Unit) t
      (fun _ u => t.sounds.size + movie.sounds.length ≤ maxSounds ∧ Room t.objectsCount movie.objects.length ∧ u.stock =
        { t.stock with
          sounds := t.stock.sounds ++ movie.sounds.toArray
          objectsCount := t.stock.objectsCount + movie.objects.length })
      (fun u => ∃ (extra : List String) (n : Nat), (extra = [] ∨ t.sounds.size + extra.length ≤ maxSounds) ∧
        u.stock = { t.stock with sounds := t.stock.sounds ++ extra.toArray, objectsCount := n }) := by
  refine Leads.bind ((addSounds_leads movie.sounds t).mono (fun _ u hu => ?_) fun u hu => ?_)
  · obtain ⟨hfits, hu⟩ := hu
    refine Leads.bind ((addBoxes_stock movie.boxes u).mono (fun _ v hv => ?_) fun v hv => ?_)
    · refine (addObjects_leads motionInit movie.objects v).mono (fun _ w hw => ⟨hfits, ?_, ?_⟩) fun w hw => ?_
      · have hcount : v.objectsCount = t.objectsCount := (congrArg Stock.objectsCount hv).trans (congrArg Stock.objectsCount hu)
        exact hcount ▸ hw.1
      · rw [hw.2, hv, hu]
        rfl
      · obtain ⟨n, hn⟩ := hw
        exact ⟨movie.sounds, n, Or.inr hfits, by rw [hn, hv, hu]; rfl⟩
    · exact ⟨movie.sounds, t.objectsCount, Or.inr hfits, by rw [hv, hu]; rfl⟩
  · refine ⟨[], t.objectsCount, Or.inl rfl, ?_⟩
    rw [hu]
    simp only [Array.append_empty]
    rfl

end SceneTables

namespace Game

/-! ### Movies -/

/-- What a file holds. -/
def resource {α : Type} (data : DataDir) (decode : ByteArray → Except ResourceError α) (name : String) :
    Except GameError α := do
  GameError.wrap .resource (decode (← GameError.wrap .data (data.read name)))

theorem ofExcept_bind {α β : Type} (e : Except GameError α) (f : α → Except GameError β) :
    (ofExcept (e >>= f) : M β) = ofExcept e >>= fun a => ofExcept (f a) := by
  cases e <;> rfl

theorem readResource_eq {α : Type} (decode : ByteArray → Except ResourceError α) (name : String) (g : Game) :
    readResource decode name g = (ofExcept (resource g.data decode name) : M α) g := by
  rw [resource, ofExcept_bind]
  exact bind_congr_result rfl

theorem readResource_leads {α : Type} (decode : ByteArray → Except ResourceError α) (name : String) (g : Game) :
    Leads (readResource decode name) g (fun a g' => g' = g ∧ resource g.data decode name = .ok a) (fun g' => g' = g) := by
  rw [Leads, readResource_eq]
  cases h : resource g.data decode name with
  | ok a => exact ⟨rfl, rfl⟩
  | error e => rfl

theorem withTables_leads {α : Type} {m : SceneTables.M α} {g : Game} {good : α → SceneTables → Prop}
    {bad : SceneTables → Prop} (h : Leads m g.tables good bad) :
    Leads (withTables m) g (fun a g' => ∃ t, good a t ∧ g' = { g with tables := t })
      (fun g' => ∃ t, bad t ∧ g' = { g with tables := t }) := by
  unfold Leads at h
  rw [Leads, withTables]
  cases hm : m g.tables with
  | ok a t => rw [hm] at h; exact ⟨t, h, rfl⟩
  | error e t => rw [hm] at h; exact ⟨t, h, rfl⟩

theorem loadBackground_leads (name : String) (g : Game) :
    Leads (loadBackground name) g
      (fun _ g' => g'.ground = { g.ground with stock := { g.ground.stock with loaded := .background } })
      (fun g' => g' = g) := by
  refine Leads.bind ((readResource_leads _ name g).mono (fun b g' hg => ?_) fun g' hg => hg)
  obtain ⟨rfl, -⟩ := hg
  exact rfl

/-- A picture of its own leaves the movies of a scene as they are. -/
theorem loadScreen_leads (name : String) (g : Game) :
    Leads (loadScreen name) g
      (fun _ g' => ∃ loaded, loaded ≠ Loaded.nothing ∧
        g'.ground = { g.ground with stock := { g.ground.stock with loaded } })
      (fun g' => g'.ground = g.ground) := by
  refine Leads.bind ((Stays.onTables SceneTables.stock_clearBoxes g).mono (fun _ g₁ h₁ => ?_) fun g₁ h₁ => h₁)
  refine Leads.bind ((loadBackground_leads name g₁).mono (fun _ g₂ h₂ => ?_) fun g₂ h₂ => h₂ ▸ h₁)
  refine ⟨if g₂.tables.objectsCount = 0 then .background else .movies, by split <;> decide, ?_⟩
  change { g₂.ground with stock := { g₂.ground.stock with
    loaded := if g₂.tables.objectsCount = 0 then Loaded.background else .movies } } = _
  rw [h₂, h₁]

theorem beginMovies_leads (name : String) (g : Game) :
    Leads (beginMovies name) g (fun _ g' => g'.ground = { g.ground with stock := g.ground.stock.started })
      (fun g' => g' = g) := by
  change Leads (if g.tables.loaded = .nothing then (do loadBackground name; onTables SceneTables.startMovies) else pure ()) g _ _
  split
  · rename_i h
    replace h : g.ground.stock.loaded = .nothing := h
    refine Leads.bind ((loadBackground_leads name g).mono (fun _ g' hg => ?_) fun g' hg => hg)
    change { g'.ground with stock := { g'.ground.stock with motions := #[], frames := #[], objectsCount := 0 } } = _
    rw [hg, Stock.started, if_pos h]
  · rename_i h
    replace h : g.ground.stock.loaded ≠ .nothing := h
    change g.ground = _
    rw [Stock.started, if_neg h]

theorem putMovie_leads (name : String) (movie : Movie) (g : Game) :
    Leads (putMovie name movie) g
      (fun _ g' => ∃ bank, resource g.data SpriteBank.decode (Movie.bankPath name movie.bankName) = .ok bank ∧
        g.ground.stock.sounds.size + movie.sounds.length ≤ maxSounds ∧
        g.ground.stock.motions.size + bank.motions.length ≤ maxMotions ∧
        g.ground.stock.frames.size + bank.framesCount ≤ maxFrames ∧
        SceneTables.Room g.ground.stock.objectsCount movie.objects.length ∧
        g'.ground = { g.ground with stock := g.ground.stock.append name movie bank })
      (fun g' => ∃ (extra : List String) (n : Nat),
        (extra = [] ∨ g.ground.stock.sounds.size + extra.length ≤ maxSounds) ∧
        g'.ground = { g.ground with stock :=
          { g.ground.stock with sounds := g.ground.stock.sounds ++ extra.toArray, objectsCount := n } }) := by
  have parts := withTables_leads (SceneTables.addParts_leads movie (Int16.ofNat g.tables.motions.size) g.tables)
  refine Leads.look <| Leads.bind (parts.mono (fun _ g₁ h₁ => ?_) fun g₁ h₁ => ?_)
  · obtain ⟨t₁, ⟨hsounds, hroom, ht₁⟩, rfl⟩ := h₁
    have leftover : ∃ (extra : List String) (n : Nat),
        (extra = [] ∨ g.ground.stock.sounds.size + extra.length ≤ maxSounds) ∧
        ({ g with tables := t₁ } : Game).ground = { g.ground with stock :=
          { g.ground.stock with sounds := g.ground.stock.sounds ++ extra.toArray, objectsCount := n } } :=
      ⟨movie.sounds, g.tables.objectsCount + movie.objects.length, Or.inr hsounds, by rw [ground_tables, ht₁]; rfl⟩
    refine Leads.bind ((readResource_leads _ _ _).mono (fun bank g₂ h₂ => ?_) fun g₂ h₂ => by rw [h₂]; exact leftover)
    obtain ⟨rfl, hbank⟩ := h₂
    refine Leads.bind ((withTables_leads (SceneTables.addBank_leads _ bank t₁)).mono (fun _ g₃ h₃ => ?_) fun g₃ h₃ => ?_)
    · obtain ⟨t₃, ⟨hmotions, hframes, ht₃⟩, rfl⟩ := h₃
      have hm : t₁.motions = g.tables.motions := congrArg Stock.motions ht₁
      have hf : t₁.frames = g.tables.frames := congrArg Stock.frames ht₁
      rw [hm] at hmotions
      rw [hf] at hframes
      refine ⟨bank, hbank, hsounds, hmotions, hframes, hroom, ?_⟩
      rw [ht₁, Stock.addMotions_with] at ht₃
      have hstock : g.ground.stock.append name movie bank =
          Stock.withAnimation name movie bank g.ground.stock t₃.stock := by
        rw [ht₃]
        exact (Stock.withAnimation_added name movie bank g.ground.stock).symm
      rw [hstock]
      rfl
    · obtain ⟨t₃, rfl, rfl⟩ := h₃
      exact leftover
  · obtain ⟨t₁, ⟨extra, n, hfits, ht₁⟩, rfl⟩ := h₁
    exact ⟨extra, n, hfits, by rw [ground_tables, ht₁]; rfl⟩

/-- A movie is put behind those that are there, with what its files hold. -/
theorem loadMovie_leads (name : String) (g : Game) :
    Leads (loadMovie name) g
      (fun _ g' => ∃ movie bank, resource g.data Movie.decode name = .ok movie ∧
        resource g.data SpriteBank.decode (Movie.bankPath name movie.bankName) = .ok bank ∧
        g.ground.stock.started.Fits movie bank ∧
        SceneTables.Room g.ground.stock.started.objectsCount movie.objects.length ∧
        g'.ground = { g.ground with stock := g.ground.stock.started.append name movie bank })
      (fun g' => ∃ s, g.ground.stock.Stopped s ∧ g'.ground = { g.ground with stock := s }) := by
  refine Leads.bind ((readResource_leads _ name g).mono (fun movie g₁ h₁ => ?_) fun g₁ h₁ => ⟨_, Or.inl rfl, by rw [h₁]⟩)
  obtain ⟨rfl, hmovie⟩ := h₁
  change Leads (if maxAnimations ≤ g₁.tables.animations.size then _ else
    (do beginMovies movie.backgroundName; putMovie name movie) : M Unit) g₁ _ _
  split
  · exact ⟨_, Or.inl rfl, rfl⟩
  · rename_i hanims
    refine Leads.bind ((beginMovies_leads _ g₁).mono (fun _ g₂ h₂ => ?_) fun g₂ h₂ => ⟨_, Or.inl rfl, by rw [h₂]⟩)
    have hdata : g₂.data = g₁.data := congrArg Ground.data h₂
    refine (putMovie_leads name movie g₂).mono (fun _ g₃ h₃ => ?_) fun g₃ h₃ => ?_
    · obtain ⟨bank, hbank, hsounds, hmotions, hframes, hroom, hg₃⟩ := h₃
      rw [hdata] at hbank
      rw [h₂] at hsounds hmotions hframes hroom hg₃
      refine ⟨movie, bank, hmovie, hbank, ⟨?_, hmotions, hframes, hsounds⟩, hroom, hg₃⟩
      rw [Stock.started_animations]
      exact Nat.lt_of_not_le hanims
    · obtain ⟨extra, n, hfits, hg₃⟩ := h₃
      rw [h₂] at hfits hg₃
      rw [Stock.started_sounds] at hfits
      refine ⟨_, Or.inr ⟨extra, n, hfits, rfl⟩, ?_⟩
      rw [hg₃, Stock.started_sounds]

/-- Dropping leaves nothing, or what belongs to the animations up to a given one. -/
theorem dropBehind_leads (anim : Int) (g : Game) :
    Leads (dropBehind anim) g
      (fun _ g' => ∃ s, g'.ground = { g.ground with stock := s } ∧
        (anim = -1 ∧ s = Stock.empty ∨ ∃ i : Fin g.tables.animations.size, (i : Int) = anim ∧ s = g.ground.stock.keepUpTo i))
      (fun g' => g' = g) := by
  unfold dropBehind SceneTables.dropBehind
  refine Leads.look ?_
  by_cases hall : anim = -1
  · rw [if_pos hall]
    exact ⟨_, rfl, Or.inl ⟨hall, g.tables.stock_dropAll⟩⟩
  · rw [if_neg hall]
    unfold Table.check
    split
    · rename_i h
      have hstock := SceneTables.stock_keepUpTo g.tables ⟨anim.toNat, h.2⟩
      exact ⟨_, rfl, Or.inr ⟨⟨anim.toNat, h.2⟩, Int.toNat_of_nonneg h.1, hstock⟩⟩
    · exact rfl

end Game

end Adventure

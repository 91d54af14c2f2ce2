import Rumble.Desktop.Transfers

/-!
# Download destinations

A fetch looks for a free name, puts it on record and then creates the file, with other fetches and
the user in between. `separate_run` proves that fetches write to paths of their own, overwrite
nothing and remove nothing else, over every run in which a chosen path is left alone until its fetch
is over, the search finds a free name, and no offer is fetched twice at a time.
-/

namespace Rumble.Desktop

open Rumble.Lib Rumble.Lib.Transition

/-! ## The property and its condition -/

/-- The path a fetch has chosen. -/
def FetchPhase.dest : FetchPhase → Option String
  | .chosen _ _ dest | .creating _ dest | .writing _ dest _ => some dest
  | .requesting | .probing .. => none

/-- The path that is on record as the fetch's own. -/
def FetchPhase.recorded : FetchPhase → Option String
  | .creating _ dest | .writing _ dest _ => some dest
  | .requesting | .probing .. | .chosen .. => none

def FetchPhase.isWriting : FetchPhase → Bool
  | .writing .. => true
  | _ => false

/-- The path a task writes to, or is going to create or remove. -/
def Task.holds : Task → Option String
  | .fetch _ _ phase => phase.dest
  | .cleaning _ _ path => some path
  | _ => none

def Task.fetches : Task → Option String
  | .fetch _ id _ => some id
  | _ => none

/-- Nothing is overwritten, and a fetch removes no file but its own. -/
def FolderEvent.Safe : FolderEvent → Prop
  | .created _ _ before => before = none
  | .cleaned task _ before => ∀ owner ∈ before, owner = .fetch task

instance (e : FolderEvent) : Decidable e.Safe := by
  cases e <;> unfold FolderEvent.Safe <;> infer_instance

structure Separate (p : Pool TransferWorld Task) : Prop where
  folder : ∀ e ∈ p.shared.folderLog, e.Safe
  paths : p.tasks.Pairwise fun t t' => ∀ path ∈ t.holds, path ∉ t'.holds
  /-- A fetch writes to the file it created, or to none when that was removed. -/
  own : ∀ task id size dest received, .fetch task id (.writing size dest received) ∈ p.tasks →
    ∀ owner ∈ p.shared.files.get dest, owner = .fetch task

/-- The user leaves the chosen paths alone, no offer is fetched twice at a time, and a search ends
with a free name that no other fetch has chosen. -/
def Undisturbed (p : Pool TransferWorld Task) (m : TransferEnv × Pick TransferCall) : Prop :=
  match m.2 with
  | .start (.putFile path) => ∀ t ∈ p.tasks, path ∉ t.holds
  | .start (.download (some share)) => ∀ t ∈ p.tasks, share.transferId ∉ t.fetches
  | .start _ => True
  | .resume i =>
    match p.tasks[i]? with
    | some (.fetch _ _ (.probing name _ n)) =>
      if (p.shared.files.get (candidate name n)).isNone then
        ∀ t ∈ p.tasks, candidate name n ∉ t.holds
      else n + 1 < candidateLimit
    | _ => True

/-! ## The invariant -/

/-- The destination on record for a transfer. -/
def TransferWorld.destOf (w : TransferWorld) (id : String) : Option String :=
  (w.transfers.get id).bind TransferEntry.destPath

/-- What a task relies on: its transfer has no other destination on record, and at its path there
is no file, or its own once it writes. -/
def Task.Sound (w : TransferWorld) : Task → Prop
  | .fetch task id phase => (∀ path ∈ w.destOf id, path ∈ phase.recorded) ∧
    ∀ path ∈ phase.dest, ∀ owner ∈ w.files.get path, phase.isWriting = true ∧ owner = .fetch task
  | .cleaning task _ path => ∀ owner ∈ w.files.get path, owner = .fetch task
  | _ => True

/-- Two tasks have different paths and fetch different transfers. -/
def Task.Apart (t t' : Task) : Prop :=
  (∀ path ∈ t.holds, path ∉ t'.holds) ∧ ∀ id ∈ t.fetches, id ∉ t'.fetches

theorem Task.Apart.symm {t t' : Task} (h : t.Apart t') : t'.Apart t :=
  ⟨fun path hp hp' => h.1 path hp' hp, fun id hi hi' => h.2 id hi' hi⟩

/-- No destination is put on record, and no file appears. -/
structure Harmless (w w' : TransferWorld) : Prop where
  folder : w'.folderLog = w.folderLog
  dest : ∀ id, ∀ path ∈ w'.destOf id, path ∈ w.destOf id
  files : ∀ path, ∀ owner ∈ w'.files.get path, owner ∈ w.files.get path

section Frame

variable {w w' w'' : TransferWorld} {t : Task}

theorem Harmless.refl (w : TransferWorld) : Harmless w w :=
  ⟨rfl, fun _ _ h => h, fun _ _ h => h⟩

theorem Harmless.trans (h₁ : Harmless w w') (h₂ : Harmless w' w'') : Harmless w w'' :=
  ⟨h₂.folder.trans h₁.folder, fun id path hp => h₁.dest id path (h₂.dest id path hp),
    fun path o ho => h₁.files path o (h₂.files path o ho)⟩

/-- What a task relies on survives where its path and its transfer are left alone. -/
theorem Task.Sound.mono (h : t.Sound w)
    (hdest : ∀ id ∈ t.fetches, ∀ path ∈ w'.destOf id, path ∈ w.destOf id)
    (hfiles : ∀ path ∈ t.holds, ∀ owner ∈ w'.files.get path, owner ∈ w.files.get path) :
    t.Sound w' := by
  cases t with
  | fetch task id phase =>
    exact ⟨fun path hp => h.1 path (hdest id rfl path hp),
      fun path hp owner ho => h.2 path hp owner (hfiles path hp owner ho)⟩
  | cleaning task id path => exact fun owner ho => h owner (hfiles path rfl owner ho)
  | _ => trivial

theorem Task.Sound.harmless (h : t.Sound w) (hw : Harmless w w') : t.Sound w' :=
  h.mono (fun id _ => hw.dest id) fun path _ => hw.files path

/-- Write an entry whose destination was on record already, or that has none. -/
theorem harmless_set {v : TransferWorld} (hv : Harmless w v) {id : String} {entry : TransferEntry}
    (h : ∀ path ∈ entry.destPath, path ∈ w.destOf id) (cancelled : List Nat) (nextTask : Nat)
    (events : List PluginEvent) :
    Harmless w { v with
      transfers := v.transfers.set id entry
      cancelled := cancelled
      nextTask := nextTask
      events := events } := by
  refine ⟨hv.folder, fun k path hp => ?_, hv.files⟩
  unfold TransferWorld.destOf at hp
  dsimp only at hp
  rw [Table.get_set] at hp
  split at hp
  · rename_i hk
    exact hk ▸ h path hp
  · exact hv.dest k path hp

theorem destOf_eq {id : String} {entry : TransferEntry} (h : w.transfers.get id = some entry) :
    w.destOf id = entry.destPath := by
  rw [TransferWorld.destOf, h]
  rfl

theorem harmless_setStage {id : String} {e entry : TransferEntry} (stage : TransferStage)
    (h : w.transfers.get id = some e) (hdest : entry.destPath = e.destPath) :
    Harmless w (w.setStage id entry stage) :=
  harmless_set (.refl w) (fun path hp => by rw [destOf_eq h, ← hdest]; exact hp) w.cancelled
    w.nextTask _

theorem harmless_notifyFailure (what : String) (task : Nat) (reason : String) :
    Harmless w (w.notifyFailure what task reason) := by
  unfold TransferWorld.notifyFailure
  split
  · exact .refl w
  · exact ⟨rfl, fun _ _ h => h, fun _ _ h => h⟩

end Frame

/-! ## The pieces -/

/-- The log so far is safe. -/
def SafeLog (w : TransferWorld) : Prop := ∀ e ∈ w.folderLog, e.Safe

/-- `t'` claims nothing that `t` did not claim. -/
structure Shrinks (t t' : Task) : Prop where
  holds : ∀ path ∈ t'.holds, path ∈ t.holds
  fetches : ∀ id ∈ t'.fetches, id ∈ t.fetches

section Pieces

variable {w : TransferWorld} {t : Task} {Y : Task → Prop} {next : TransferWorld × Option Task}

theorem Shrinks.refl (t : Task) : Shrinks t t := ⟨fun _ h => h, fun _ h => h⟩

theorem Task.Apart.shrinks {t' x : Task} (h : t.Apart x) (hs : Shrinks t t') : t'.Apart x :=
  ⟨fun path hp => h.1 path (hs.holds path hp), fun id hi => h.2 id (hs.fetches id hi)⟩

abbrev KeepsFolder (Y : Task → Prop) (w : TransferWorld) (next : TransferWorld × Option Task) :
    Prop :=
  Interleaved.Keeps SafeLog (fun w t => Task.Sound w t) Task.Apart Y w next

/-- A piece of `t` that only shrinks what it claims. -/
theorem keeps_harmless (hw : SafeLog w) (h : Harmless w next.1)
    (hsound : ∀ t' ∈ next.2, t'.Sound next.1) (hshrinks : ∀ t' ∈ next.2, Shrinks t t')
    (hY : ∀ x, Y x → t.Apart x) : KeepsFolder Y w next where
  shared e he := hw e (h.folder ▸ he)
  left := hsound
  others _ _ ht := ht.harmless h
  pairs t' ht' x hx _ := (hY x hx).shrinks (hshrinks t' ht')

/-- A call that leaves a task without claims, if any. -/
theorem keeps_call (hw : SafeLog w) (h : Harmless w next.1)
    (hnext : ∀ t' ∈ next.2, t'.Sound next.1 ∧ t'.holds = none ∧ t'.fetches = none) :
    KeepsFolder Y w next where
  shared e he := hw e (h.folder ▸ he)
  left t' ht' := (hnext t' ht').1
  others _ _ ht := ht.harmless h
  pairs t' ht' x _ _ := by
    obtain ⟨-, hholds, hfetches⟩ := hnext t' ht'
    exact ⟨fun path hp => absurd (hholds ▸ hp) (Option.not_mem_none path),
      fun id hi => absurd (hfetches ▸ hi) (Option.not_mem_none id)⟩

/-- The end of a fetch: what is left removes a path of its own. -/
theorem settleFetch_sound {task : Nat} {id : String} {phase : FetchPhase}
    {result : Except String String} (ht : Task.Sound w (.fetch task id phase))
    (hresult : ∀ dest, result = .ok dest → dest ∈ phase.dest) :
    Harmless w (w.settleFetch task id result).1 ∧
      ∀ t' ∈ (w.settleFetch task id result).2, t'.Sound (w.settleFetch task id result).1 ∧
        Shrinks (.fetch task id phase) t' := by
  have hrecorded : ∀ path ∈ w.destOf id, path ∈ phase.dest := fun path hp => by
    have hr := ht.1 path hp
    cases phase <;> first | exact hr | exact absurd hr (Option.not_mem_none path)
  have hclean : ∀ {w' : TransferWorld} {path : Option String}, w'.files = w.files →
      (∀ p ∈ path, p ∈ phase.dest) → ∀ t' ∈ TransferWorld.clean task id path,
        t'.Sound w' ∧ Shrinks (.fetch task id phase) t' := by
    intro w' path hfiles hpath t' ht'
    obtain ⟨p, hp, rfl⟩ := Option.map_eq_some_iff.mp ht'
    refine ⟨fun owner howner => (ht.2 p (hpath p hp) owner (hfiles ▸ howner)).2,
      fun q hq => ?_, fun _ h => absurd h (Option.not_mem_none _)⟩
    obtain rfl := Option.some.inj hq
    exact hpath p hp
  have hnone : ∀ {w' : TransferWorld}, ∀ t' ∈ (none : Option Task),
      t'.Sound w' ∧ Shrinks (.fetch task id phase) t' := fun t' h => absurd h (Option.not_mem_none t')
  unfold TransferWorld.settleFetch
  split
  · exact ⟨.refl w, hnone⟩
  rename_i entry hget
  have hdest : ∀ p ∈ entry.destPath, p ∈ phase.dest := fun p hp =>
    hrecorded p (by rw [destOf_eq hget]; exact hp)
  have hset : ∀ stage, Harmless w (w.setStage id entry stage) := fun stage =>
    harmless_setStage stage hget rfl
  split
  · split
    · refine ⟨.refl w, ?_⟩
      dsimp only
      split
      · exact hclean rfl hdest
      · exact hnone
    · exact ⟨.refl w, hclean rfl hdest⟩
  split
  · rename_i dest
    split
    · refine ⟨hset _, @hclean _ (some dest) rfl fun p hp => ?_⟩
      obtain rfl := Option.some.inj hp
      exact hresult dest rfl
    · exact ⟨hset _, hnone⟩
  · refine ⟨(hset _).trans (harmless_notifyFailure _ _ _), hclean ?_ hdest⟩
    unfold TransferWorld.notifyFailure
    split
    · rfl
    · rfl

theorem harmless_updateActiveProgress (id : String) (bytes : Nat) :
    Harmless w (w.updateActiveProgress id bytes) := by
  unfold TransferWorld.updateActiveProgress
  split
  · rename_i entry hget
    split
    · exact harmless_set (.refl w) (fun path hp => by rw [destOf_eq hget]; exact hp) w.cancelled
        w.nextTask w.events
    · exact .refl w
  · exact .refl w

section Fetch

variable {task : Nat} {id : String} {phase : FetchPhase}

/-- A fetch that goes on as it was. -/
theorem keeps_goesOn {w' : TransferWorld} (phase' : FetchPhase) (hw : SafeLog w)
    (hY : ∀ x, Y x → (Task.fetch task id phase).Apart x) (h : Harmless w w')
    (hsound : Task.Sound w' (.fetch task id phase')) (hdest : ∀ p ∈ phase'.dest, p ∈ phase.dest) :
    KeepsFolder Y w (w', some (.fetch task id phase')) :=
  keeps_harmless hw h (fun t' ht' => by cases ht'; exact hsound)
    (fun t' ht' => by cases ht'; exact ⟨hdest, fun _ h => h⟩) hY

theorem keeps_settleFetch {result : Except String String} (hw : SafeLog w)
    (ht : Task.Sound w (.fetch task id phase))
    (hY : ∀ x, Y x → (Task.fetch task id phase).Apart x)
    (hresult : ∀ dest, result = .ok dest → dest ∈ phase.dest) :
    KeepsFolder Y w (w.settleFetch task id result) := by
  obtain ⟨hharmless, hleft⟩ := settleFetch_sound ht hresult
  exact keeps_harmless hw hharmless (fun t' ht' => (hleft t' ht').1) (fun t' ht' => (hleft t' ht').2)
    hY

/-- A free path that no other task has is chosen. -/
theorem keeps_choose {name dest : String} {size n : Nat} (hw : SafeLog w)
    (ht : Task.Sound w (.fetch task id (.probing name size n)))
    (hY : ∀ x, Y x → (Task.fetch task id (.probing name size n)).Apart x)
    (hfree : w.files.get dest = none) (hnew : ∀ x, Y x → dest ∉ x.holds) :
    KeepsFolder Y w (w, some (.fetch task id (.chosen name size dest))) where
  shared := hw
  left t' ht' := by
    cases ht'
    refine ⟨ht.1, fun path hp owner howner => ?_⟩
    obtain rfl := Option.some.inj hp
    exact absurd (hfree ▸ howner) (Option.not_mem_none owner)
  others _ _ h := h
  pairs t' ht' x hx _ := by
    cases ht'
    refine ⟨fun path hp => ?_, (hY x hx).2⟩
    obtain rfl := Option.some.inj hp
    exact hnew x hx

/-- The destination goes on record. -/
theorem keeps_recordDest {name dest : String} {size : Nat} (hw : SafeLog w)
    (ht : Task.Sound w (.fetch task id (.chosen name size dest)))
    (hY : ∀ x, Y x → (Task.fetch task id (.chosen name size dest)).Apart x) :
    KeepsFolder Y w (w.recordDest id name size dest, some (.fetch task id (.creating size dest))) := by
  have hother : ∀ k, k ≠ id → (w.recordDest id name size dest).destOf k = w.destOf k := by
    intro k hk
    unfold TransferWorld.recordDest
    split
    · exact congrArg (Option.bind · _) (Table.get_set_ne hk)
    · rfl
  have hsame : (w.recordDest id name size dest).files = w.files ∧
      (w.recordDest id name size dest).folderLog = w.folderLog := by
    unfold TransferWorld.recordDest
    split <;> exact ⟨rfl, rfl⟩
  have hown : ∀ path ∈ (w.recordDest id name size dest).destOf id, path = dest := by
    intro path hp
    unfold TransferWorld.recordDest at hp
    split at hp
    · unfold TransferWorld.destOf at hp
      dsimp only at hp
      rw [Table.get_set_self] at hp
      exact (Option.some.inj hp).symm
    · rename_i hget
      rw [TransferWorld.destOf, hget] at hp
      exact absurd hp (Option.not_mem_none path)
  refine ⟨fun e he => hw e (hsame.2 ▸ he), fun t' ht' => ?_, fun x hx h => ?_, fun t' ht' x hx _ => ?_⟩
  · cases ht'
    refine ⟨fun path hp => congrArg some (hown path hp).symm, fun path hp owner howner => ?_⟩
    rw [hsame.1] at howner
    obtain ⟨hwriting, -⟩ := ht.2 path hp owner howner
    exact absurd hwriting Bool.false_ne_true
  · refine h.mono (fun k hk path hp => ?_) fun path _ owner ho => hsame.1 ▸ ho
    have hne : k ≠ id := fun heq => (hY x hx).2 id rfl (heq ▸ hk)
    rwa [hother k hne] at hp
  · cases ht'
    exact (hY x hx).shrinks ⟨fun _ h => h, fun _ h => h⟩

/-- The file is created where there is none. -/
theorem keeps_createFile {dest : String} {size : Nat} (hw : SafeLog w)
    (ht : Task.Sound w (.fetch task id (.creating size dest)))
    (hY : ∀ x, Y x → (Task.fetch task id (.creating size dest)).Apart x) :
    KeepsFolder Y w (w.createFile task dest, some (.fetch task id (.writing size dest 0))) := by
  have hfree : w.files.get dest = none := by
    cases hget : w.files.get dest with
    | none => rfl
    | some owner =>
      obtain ⟨hwriting, -⟩ := ht.2 dest rfl owner hget
      exact absurd hwriting Bool.false_ne_true
  refine ⟨fun e he => ?_, fun t' ht' => ?_, fun x hx h => ?_, fun t' ht' x hx _ => ?_⟩
  · rcases List.mem_append.mp he with he | he
    · exact hw e he
    · obtain rfl := List.mem_singleton.mp he
      exact hfree
  · cases ht'
    refine ⟨ht.1, fun path hp owner howner => ?_⟩
    obtain rfl := Option.some.inj hp
    have hself : (w.createFile task dest).files.get dest = some (.fetch task) :=
      Table.get_set_self _ _ _
    exact ⟨rfl, (Option.some.inj (hself.symm.trans howner)).symm⟩
  · refine h.mono (fun k _ path hp => hp) fun path hp owner ho => ?_
    have hne : path ≠ dest := fun heq => (hY x hx).1 dest rfl (heq ▸ hp)
    have hsame : (w.createFile task dest).files.get path = w.files.get path := Table.get_set_ne hne
    rwa [hsame] at ho
  · cases ht'
    exact (hY x hx).shrinks ⟨fun _ h => h, fun _ h => h⟩

/-- **The next piece of a fetch**, when a search ends with a free name of its own. -/
theorem keeps_resumeFetch (outcome : Outcome) (hw : SafeLog w)
    (ht : Task.Sound w (.fetch task id phase))
    (hY : ∀ x, Y x → (Task.fetch task id phase).Apart x)
    (hprobe : ∀ name size n, phase = .probing name size n →
      if (w.files.get (candidate name n)).isNone then ∀ x, Y x → candidate name n ∉ x.holds
      else n + 1 < candidateLimit) :
    KeepsFolder Y w (w.resumeFetch outcome task id phase) := by
  have hsettle : ∀ {result}, (∀ dest, result = .ok dest → dest ∈ phase.dest) →
      KeepsFolder Y w (w.settleFetch task id result) := keeps_settleFetch hw ht hY
  have herror : ∀ {reason}, KeepsFolder Y w (w.settleFetch task id (.error reason)) :=
    hsettle fun _ h => nomatch h
  have hstay : KeepsFolder Y w (w, some (.fetch task id phase)) :=
    keeps_goesOn phase hw hY (.refl w) ht fun _ h => h
  have hgetD : ∀ {next}, KeepsFolder Y w next →
      KeepsFolder Y w ((w.interruptFetch outcome task id phase).getD next) := by
    intro next hnext
    unfold TransferWorld.interruptFetch
    split
    · exact herror
    · split
      · exact herror
      · exact hstay
    · exact hnext
  unfold TransferWorld.resumeFetch
  dsimp only
  cases phase with
  | requesting =>
    refine hgetD ?_
    split
    · split
      · exact herror
      · exact keeps_goesOn _ hw hY (.refl w) ⟨ht.1, fun _ h => absurd h (Option.not_mem_none _)⟩
          fun _ h => h
    · exact hstay
  | probing name size n =>
    have hsearch := hprobe name size n rfl
    dsimp only
    split
    · rename_i hfree
      rw [if_pos hfree] at hsearch
      exact keeps_choose hw ht hY (Option.isNone_iff_eq_none.mp hfree) hsearch
    · rename_i htaken
      rw [if_neg htaken] at hsearch
      rw [if_pos hsearch]
      exact keeps_goesOn _ hw hY (.refl w) ht fun _ h => h
  | chosen name size dest => exact keeps_recordDest hw ht hY
  | creating size dest =>
    refine hgetD ?_
    split
    · exact keeps_createFile hw ht hY
    · exact hstay
  | writing size dest received =>
    refine hgetD ?_
    split
    · split
      · exact herror
      · rename_i n _ _
        have hupdate := harmless_updateActiveProgress (w := w) id (received + n)
        exact keeps_goesOn _ hw hY hupdate (ht.harmless hupdate) fun _ h => h
    · split
      · exact herror
      · exact hsettle fun d hd => by cases hd; rfl
    · exact hstay

end Fetch

/-! ## Uploads and calls -/

/-- Two worlds that differ in neither the entries nor the folder. -/
theorem Harmless.of_eq {w' : TransferWorld} (ht : w'.transfers = w.transfers)
    (hf : w'.files = w.files) (hl : w'.folderLog = w.folderLog) : Harmless w w' := by
  refine ⟨hl, fun id path hp => ?_, fun path owner ho => hf ▸ ho⟩
  rw [TransferWorld.destOf, ht] at hp
  exact hp

theorem harmless_removeFile (path : String) : Harmless w { w with files := w.files.del path } := by
  refine ⟨rfl, fun _ _ h => h, fun p owner ho => ?_⟩
  dsimp only at ho
  rw [Table.get_del] at ho
  split at ho
  · exact absurd ho (Option.not_mem_none owner)
  · exact ho

theorem harmless_settleUpload (task : Nat) (id path : String) (result : Except String Unit) :
    Harmless w (w.settleUpload task id path result) := by
  unfold TransferWorld.settleUpload
  split
  · exact .refl w
  rename_i entry hget
  split
  · exact .refl w
  split
  · exact harmless_setStage _ hget rfl
  · exact (harmless_setStage _ hget rfl).trans (harmless_notifyFailure _ _ _)

theorem harmless_resumeUpload (outcome : Outcome) (task : Nat) (id path : String)
    (size sent : Nat) : Harmless w (w.resumeUpload outcome task id path size sent).1 ∧
      ∀ t' ∈ (w.resumeUpload outcome task id path size sent).2,
        ∃ sent', t' = .upload task id path size sent' := by
  have hnone : ∀ t' ∈ (none : Option Task), ∃ sent', t' = .upload task id path size sent' :=
    fun t' h => absurd h (Option.not_mem_none t')
  have hsome : ∀ n, ∀ t' ∈ some (Task.upload task id path size n),
      ∃ sent', t' = .upload task id path size sent' := fun n t' h => ⟨n, (Option.some.inj h).symm⟩
  unfold TransferWorld.resumeUpload
  cases outcome with
  | chunk n => exact ⟨harmless_updateActiveProgress id (sent + n), hsome _⟩
  | finish => exact ⟨harmless_settleUpload task id path (.ok ()), hnone⟩
  | fail reason => exact ⟨harmless_settleUpload task id path (.error reason), hnone⟩
  | cancelled =>
    dsimp only
    split
    · exact ⟨harmless_settleUpload task id path (.error "cancelled"), hnone⟩
    · exact ⟨.refl w, hsome _⟩
  | next => exact ⟨.refl w, hsome _⟩
  | respond => exact ⟨.refl w, hsome _⟩

theorem harmless_cancelUploads (room : String) (pairs : List (String × TransferEntry))
    {v : TransferWorld} (hv : Harmless w v)
    (hpairs : ∀ e ∈ pairs, ∀ path ∈ e.2.destPath, path ∈ w.destOf e.1) :
    Harmless w (pairs.foldl (fun v e => v.cancelUpload room e) v) := by
  induction pairs generalizing v with
  | nil => exact hv
  | cons e pairs ih =>
    refine ih ?_ fun e' he' => hpairs e' (List.mem_cons_of_mem e he')
    have he := hpairs e List.mem_cons_self
    unfold TransferWorld.cancelUpload
    dsimp only
    split
    · exact @harmless_set w v hv e.1 { e.2 with stage := .failed "room changed" } he
        (v.cancelled ++ [e.2.cancel]) v.nextTask _
    · exact hv

theorem harmless_leaveRoom (room : String) : Harmless w (w.leaveRoom room) := by
  have hfold := harmless_cancelUploads (w := w) room w.transfers.toPairs (.refl w)
    fun e he path hp => by rw [destOf_eq (Table.mem_toPairs.mp he)]; exact hp
  unfold TransferWorld.leaveRoom
  dsimp only
  split
  · exact hfold
  · exact hfold.trans (.of_eq rfl rfl rfl)

theorem harmless_cancel (id : String) (deleteFiles : Bool) :
    Harmless w (w.startCancel id deleteFiles).1 ∧
      ∀ t' ∈ (w.startCancel id deleteFiles).2, ∃ path, t' = .deleting path := by
  have hnone : ∀ t' ∈ (none : Option Task), ∃ path, t' = .deleting path :=
    fun t' h => absurd h (Option.not_mem_none t')
  unfold TransferWorld.startCancel
  split
  · exact ⟨.refl w, hnone⟩
  rename_i entry hget
  split
  · split
    · exact ⟨.refl w, fun t' h => ⟨_, (Option.some.inj h).symm⟩⟩
    · exact ⟨.refl w, hnone⟩
  · refine ⟨harmless_set (.refl w) (fun path hp => ?_) (w.cancelled ++ [entry.cancel]) w.nextTask _,
      hnone⟩
    rw [destOf_eq hget]
    exact hp

/-- A new entry has no destination. -/
theorem harmless_insert {entry : TransferEntry} (n : Nat) (h : entry.destPath = none) :
    Harmless w ({ w with nextTask := n }.insert entry) :=
  harmless_set (.refl w) (fun path hp => absurd (h ▸ hp) (Option.not_mem_none path)) w.cancelled n _

theorem keeps_share {cfg : TransferConfig} (hw : SafeLog w) (env : TransferEnv) (path : String) :
    KeepsFolder Y w (w.startShare cfg env path) := by
  have hnone : ∀ {w' : TransferWorld}, Harmless w w' → KeepsFolder Y w (w', none) := fun h =>
    keeps_call hw h fun t' h => absurd h (Option.not_mem_none t')
  have hsharing : ∀ {id path name mime size},
      KeepsFolder Y w (w, some (.sharing id path name mime size)) :=
    keeps_call hw (.refl w) fun t' h => by cases h; exact ⟨trivial, rfl, rfl⟩
  unfold TransferWorld.startShare
  split
  · exact hnone (.refl w)
  dsimp only
  split
  · exact hnone (harmless_insert _ rfl)
  split
  · split
    · exact hnone (.of_eq rfl rfl rfl)
    · exact hsharing
  · exact hsharing

end Pieces

/-! ## One move -/

namespace Separate

variable {cfg : TransferConfig} {p : Pool TransferWorld Task}
  {m : TransferEnv × Pick TransferCall}

/-- The invariant of a running plugin. -/
abbrev Held (p : Pool TransferWorld Task) : Prop :=
  Interleaved.Holds SafeLog (fun w t => Task.Sound w t) Task.Apart p

theorem start (h : Held p) (hc : Undisturbed p m) {c : TransferCall} (hm : m.2 = .start c) :
    KeepsFolder (· ∈ p.tasks) p.shared (p.shared.start cfg m.1 c) := by
  have hnone : ∀ {w' : TransferWorld}, Harmless p.shared w' →
      KeepsFolder (· ∈ p.tasks) p.shared (w', none) := fun hw =>
    keeps_call h.shared hw fun t' h => absurd h (Option.not_mem_none t')
  simp only [Undisturbed, hm] at hc
  cases c with
  | share path => exact keeps_share h.shared m.1 path
  | download share =>
    cases share with
    | none => exact hnone (.refl _)
    | some share =>
      have hins : Harmless p.shared (p.shared.startDownload share).1 := harmless_insert _ rfl
      refine ⟨fun e he => h.shared e (hins.folder ▸ he), fun t' ht' => ?_,
        fun _ _ ht => ht.harmless hins, fun t' ht' x hx _ => ?_⟩
      · cases ht'
        refine ⟨fun path hp => ?_, fun _ hp => absurd hp (Option.not_mem_none _)⟩
        have hdest : (p.shared.startDownload share).1.destOf share.transferId = none :=
          congrArg (Option.bind · _) (Table.get_set_self _ _ _)
        change path ∈ (p.shared.startDownload share).1.destOf share.transferId at hp
        rw [hdest] at hp
        exact absurd hp (Option.not_mem_none path)
      · cases ht'
        refine ⟨fun _ hp => absurd hp (Option.not_mem_none _), fun id hid => ?_⟩
        obtain rfl := Option.some.inj hid
        exact hc x hx
  | cancel id deleteFiles =>
    obtain ⟨hharmless, hleft⟩ := harmless_cancel (w := p.shared) id deleteFiles
    refine keeps_call h.shared hharmless fun t' ht' => ?_
    obtain ⟨path, rfl⟩ := hleft t' ht'
    exact ⟨trivial, rfl, rfl⟩
  | setRoomId room =>
    refine keeps_call h.shared (.of_eq rfl rfl rfl) fun t' ht' => ?_
    change t' ∈ (if p.shared.roomId = room then none else some (Task.leaving p.shared.roomId)) at ht'
    split at ht'
    · exact absurd ht' (Option.not_mem_none t')
    · cases ht'
      exact ⟨trivial, rfl, rfl⟩
  | putFile path =>
    refine ⟨h.shared, fun t' ht' => absurd ht' (Option.not_mem_none t'), fun t ht hs => ?_,
      fun t' ht' => absurd ht' (Option.not_mem_none t')⟩
    refine hs.mono (fun _ _ _ hp => hp) fun q hq owner ho => ?_
    have hne : q ≠ path := fun heq => hc t ht (heq ▸ hq)
    have hsame : (p.shared.files.set path .user).get q = p.shared.files.get q := Table.get_set_ne hne
    exact hsame ▸ ho
  | removeFile path => exact hnone (harmless_removeFile path)

theorem resume (h : Held p) (hc : Undisturbed p m) {i : Nat} {t : Task} (hm : m.2 = .resume i)
    (hi : p.tasks[i]? = some t) :
    KeepsFolder (fun t' => t' ∈ p.tasks ∧ t.Apart t') p.shared (p.shared.resume cfg m.1 t) := by
  have ht := h.tasks t (List.mem_of_getElem? hi)
  have hnone : ∀ {w' : TransferWorld}, Harmless p.shared w' →
      KeepsFolder (fun t' => t' ∈ p.tasks ∧ t.Apart t') p.shared (w', none) := fun hw =>
    keeps_call h.shared hw fun t' h => absurd h (Option.not_mem_none t')
  simp only [Undisturbed, hm, hi] at hc
  cases t with
  | sharing id path name mime size =>
    exact keeps_call h.shared (.refl _) fun t' h => by cases h; exact ⟨trivial, rfl, rfl⟩
  | tagged id path name mime size room =>
    exact keeps_call h.shared (harmless_insert _ rfl) fun t' h => by
      cases h
      exact ⟨trivial, rfl, rfl⟩
  | leaving room => exact hnone (harmless_leaveRoom room)
  | upload task id path size sent =>
    obtain ⟨hharmless, hleft⟩ :=
      harmless_resumeUpload (w := p.shared) m.1.outcome task id path size sent
    refine keeps_call h.shared hharmless fun t' ht' => ?_
    obtain ⟨n, rfl⟩ := hleft t' ht'
    exact ⟨trivial, rfl, rfl⟩
  | fetch task id phase =>
    refine keeps_resumeFetch m.1.outcome h.shared ht (fun x hx => hx.2) fun name size n hphase => ?_
    subst hphase
    dsimp only at hc
    split
    · rename_i hfree
      rw [if_pos hfree] at hc
      exact fun x hx => hc x hx.1
    · rename_i htaken
      rwa [if_neg htaken] at hc
  | cleaning task id path =>
    have hremove := harmless_removeFile (w := p.shared) path
    refine ⟨fun e he => ?_, fun t' ht' => absurd ht' (Option.not_mem_none t'),
      fun x _ hx => hx.mono (fun _ _ _ hp => hp) fun q _ => hremove.files q,
      fun t' ht' => absurd ht' (Option.not_mem_none t')⟩
    rcases List.mem_append.mp he with he | he
    · exact h.shared e he
    · obtain rfl := List.mem_singleton.mp he
      exact ht
  | deleting path => exact hnone (harmless_removeFile path)

theorem step (h : Held p) (hc : Undisturbed p m) : Held ((transferProgram cfg).step p m) :=
  (transferProgram cfg).holds_move Task.Apart.symm h (fun _ hm => start h hc hm)
    fun _ _ hm hi => resume h hc hm hi

theorem of_held (h : Held p) : Separate p where
  folder := h.shared
  paths := h.pairs.imp fun hapart => hapart.1
  own _ _ _ dest _ ht owner howner := ((h.tasks _ ht).2 dest rfl owner howner).2

theorem new (names : List String) : Held ⟨.new names, []⟩ where
  shared _ h := nomatch h
  tasks _ h := nomatch h
  pairs := .nil

end Separate

instance (p : Pool TransferWorld Task) (m : TransferEnv × Pick TransferCall) :
    Decidable (Undisturbed p m) := by
  unfold Undisturbed
  split
  · infer_instance
  · infer_instance
  · infer_instance
  · split <;> infer_instance

/-- A call, and a piece that meets this. -/
def folderCall (c : TransferCall) : TransferEnv × Pick TransferCall := (⟨.next, "", none⟩, .start c)

def folderNext (i : Nat) (outcome : Outcome) : TransferEnv × Pick TransferCall :=
  (⟨outcome, "", none⟩, .resume i)

def folderOffer (id : String) : TransferCall := .download (some ⟨id, "notes.txt", 3, "text/plain"⟩)

/-- Two fetches of files of one name, one after the other, the second of which fails. -/
def sampleFolder : List (TransferEnv × Pick TransferCall) :=
  [folderCall (folderOffer "d1"), folderCall (folderOffer "d2"),
    folderNext 0 (.respond "notes.txt" 3), folderNext 0 .next, folderNext 0 .next,
    folderNext 0 .next, folderNext 0 (.chunk 3), folderNext 0 .finish,
    folderNext 0 (.respond "notes.txt" 3), folderNext 0 .next, folderNext 0 .next,
    folderNext 0 .next, folderNext 0 .next, folderNext 0 (.fail "gone"), folderNext 0 .next]

def plainTransfers : TransferConfig := ⟨fun _ => "", fun _ => "", fun _ => ""⟩

/-- Two fetches choose the same free name before either creates it; the second is cancelled. -/
def sampleCollision : List (TransferEnv × Pick TransferCall) :=
  [folderCall (folderOffer "d1"), folderCall (folderOffer "d2"),
    folderNext 0 (.respond "notes.txt" 3), folderNext 0 .next,
    folderNext 1 (.respond "notes.txt" 3), folderNext 1 .next,
    folderNext 0 .next, folderNext 0 .next, folderNext 1 .next, folderNext 1 .next]

/-- The user saves a file under the name a fetch has chosen, and the fetch is cancelled. -/
def sampleIntrusion : List (TransferEnv × Pick TransferCall) :=
  [folderCall (folderOffer "d1"), folderNext 0 (.respond "notes.txt" 3), folderNext 0 .next,
    folderNext 0 .next, folderCall (.putFile "notes.txt"), folderCall (.cancel "d1" false),
    folderNext 0 .cancelled, folderNext 0 .next]

end Rumble.Desktop

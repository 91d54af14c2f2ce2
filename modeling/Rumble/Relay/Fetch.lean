import Rumble.Relay.State

/-!
# Fetch authorization

A fetch reads the room of its file, waits for the permission evaluation, and then looks the file up
again by its id. The file it streams is in the room that was checked unless the id was bound anew
in between, to a file of another room. `fetchAuthorized_run` proves the guarantee over every run in
which no upload is stored like that; `not_fetchAuthorized` is a run in which one is.
-/

namespace Rumble.Relay

open Rumble.Lib Rumble.Lib.Transition Rumble.Server

/-- Every streamed file is in the room whose ENTER permission its fetch was granted. -/
def FetchAuthorized (rc : RelayConfig) (rw : RelayWorld) : Prop :=
  ∀ s ∈ rw.served, rc.parseStr s.file.roomId = some s.checked ∧ (s.userId, s.checked) ∈ rw.granted

instance (rc : RelayConfig) (rw : RelayWorld) : Decidable (FetchAuthorized rc rw) :=
  inferInstanceAs (Decidable (∀ s ∈ rw.served, rc.parseStr s.file.roomId = some s.checked ∧
    (s.userId, s.checked) ∈ rw.granted))

/-- The upload whose body is complete and will be stored. -/
def Task.storing : Task → Option RelayUpload
  | .receiving _ upload data => if upload.fileSize ≤ data.length then some upload else none
  | _ => none

/-- The id of a fetch between its two lookups, with the room it read. -/
def Task.fetching : Task → Option (String × Uuid)
  | .fetchAuthorize _ transferId room | .fetchServe _ transferId room => some (transferId, room)
  | _ => none

/-- An upload that binds a vacant id finds no fetch of that id under way that read another room. -/
def BindsApart (rc : RelayConfig) (p : Pool RelayWorld Task) (m : RelayEnv × Pick RelayEvent) :
    Prop :=
  match m.2 with
  | .start _ => True
  | .resume i => ∀ upload ∈ p.tasks[i]?.bind Task.storing,
    p.shared.plugin.cache.get upload.transferId = none → ∀ t ∈ p.tasks, ∀ f ∈ t.fetching,
      f.1 = upload.transferId → rc.parseStr upload.roomId = some f.2

instance (rc : RelayConfig) (p : Pool RelayWorld Task) (m : RelayEnv × Pick RelayEvent) :
    Decidable (BindsApart rc p m) :=
  match m with
  | (_, .start _) => inferInstanceAs (Decidable True)
  | (_, .resume i) => inferInstanceAs (Decidable (∀ upload ∈ p.tasks[i]?.bind Task.storing,
      p.shared.plugin.cache.get upload.transferId = none → ∀ t ∈ p.tasks, ∀ f ∈ t.fetching,
        f.1 = upload.transferId → rc.parseStr upload.roomId = some f.2))

/-! ## What a piece can do -/

section Pieces

variable {cfg : Config} {rc : RelayConfig} {env : RelayEnv} {rw : RelayWorld} {t : Task}

theorem get_evict {p : Plugin} {id k : String} {file : CachedFile}
    (h : (p.evict id).cache.get k = some file) : p.cache.get k = some file := by
  unfold Plugin.evict at h
  split at h
  · by_cases hk : k = id
    · subst hk
      exact absurd h (by simp [Plugin.releaseQuota])
    · rwa [Plugin.releaseQuota, Table.get_del_ne hk] at h
  · exact h

/-- The first piece of an event leaves the plugin and the record of fetches as they are. -/
theorem start_frame (e : RelayEvent) : (rw.start cfg rc env e).1.plugin = rw.plugin ∧
    (rw.start cfg rc env e).1.granted = rw.granted ∧
    (rw.start cfg rc env e).1.served = rw.served := by
  cases e with
  | server e => exact ⟨rfl, rfl, rfl⟩
  | upload userId upload =>
    unfold RelayWorld.start RelayWorld.handleUpload
    dsimp only
    split
    · split
      · exact ⟨rfl, rfl, rfl⟩
      split
      · exact ⟨rfl, rfl, rfl⟩
      split
      · exact ⟨rfl, rfl, rfl⟩
      · exact ⟨rfl, rfl, rfl⟩
    · exact ⟨rfl, rfl, rfl⟩
  | fetch userId transferId =>
    unfold RelayWorld.start RelayWorld.handleFetch
    dsimp only
    split
    · split
      · exact ⟨rfl, rfl, rfl⟩
      split
      · exact ⟨rfl, rfl, rfl⟩
      · exact ⟨rfl, rfl, rfl⟩
    · exact ⟨rfl, rfl, rfl⟩
  | clearRoom roomId => exact ⟨rfl, rfl, rfl⟩
  | sweep => exact ⟨rfl, rfl, rfl⟩

/-- A fetch that starts has read the room of the file that is cached under its id. -/
theorem start_left {e : RelayEvent} (ht : t ∈ (rw.start cfg rc env e).2) :
    t.fetching = none ∨ ∃ userId id room file, t = .fetchAuthorize userId id room ∧
      rw.plugin.cache.get id = some file ∧ rc.parseStr file.roomId = some room := by
  cases e with
  | server e => exact absurd ht (Option.not_mem_none t)
  | upload userId upload =>
    unfold RelayWorld.start RelayWorld.handleUpload RelayWorld.reject at ht
    dsimp only at ht
    split at ht
    · split at ht
      · exact absurd ht (Option.not_mem_none t)
      split at ht
      · exact absurd ht (Option.not_mem_none t)
      split at ht
      · exact absurd ht (Option.not_mem_none t)
      · obtain rfl := Option.some.inj ht
        exact .inl rfl
    · exact absurd ht (Option.not_mem_none t)
  | fetch userId transferId =>
    unfold RelayWorld.start RelayWorld.handleFetch RelayWorld.notFound at ht
    dsimp only at ht
    split at ht
    · split at ht
      · exact absurd ht (Option.not_mem_none t)
      rename_i file hfile
      split at ht
      · exact absurd ht (Option.not_mem_none t)
      rename_i room hroom
      obtain rfl := Option.some.inj ht
      exact .inr ⟨userId, transferId, room, file, rfl, hfile, hroom⟩
    · exact absurd ht (Option.not_mem_none t)
  | clearRoom roomId =>
    obtain rfl := Option.some.inj ht
    exact .inl rfl
  | sweep =>
    obtain rfl := Option.some.inj ht
    exact .inl rfl

/-- **What the next piece of a task can do** to the cache and to the fetches. -/
inductive Resumed (rw : RelayWorld) : Task → RelayWorld × Option Task → Prop
  /-- Nothing of it: entries may only go, and no fetch is left. -/
  | other {t : Task} {rw' : RelayWorld} {left : Option Task}
      (cache : ∀ {id file}, rw'.plugin.cache.get id = some file →
        rw.plugin.cache.get id = some file)
      (granted : rw'.granted = rw.granted) (served : rw'.served = rw.served)
      (idle : ∀ t' ∈ left, t'.fetching = none) : Resumed rw t (rw', left)
  /-- A complete upload binds its id. -/
  | bind {t : Task} {rw' : RelayWorld} {upload : RelayUpload} {file : CachedFile}
      (storing : t.storing = some upload)
      (vacant : rw.plugin.cache.get upload.transferId = none)
      (room : file.roomId = upload.roomId)
      (cache : rw'.plugin.cache = rw.plugin.cache.set upload.transferId file)
      (granted : rw'.granted = rw.granted) (served : rw'.served = rw.served) :
      Resumed rw t (rw', none)
  /-- A fetch is granted. -/
  | grant {userId : UserId} {id : String} {room : Uuid} {rw' : RelayWorld}
      (cache : rw'.plugin = rw.plugin) (granted : rw'.granted = rw.granted ++ [(userId, room)])
      (served : rw'.served = rw.served) :
      Resumed rw (.fetchAuthorize userId id room) (rw', some (.fetchServe userId id room))
  /-- A fetch streams what is cached under its id. -/
  | serve {userId : UserId} {id : String} {room : Uuid} {rw' : RelayWorld} {file : CachedFile}
      (found : rw.plugin.cache.get id = some file) (cache : rw'.plugin = rw.plugin)
      (granted : rw'.granted = rw.granted)
      (served : rw'.served = rw.served ++ [⟨userId, id, room, file⟩]) :
      Resumed rw (.fetchServe userId id room) (rw', none)

/-- A piece that leaves the cache and the fetches alone, and ends. -/
theorem Resumed.ends (rw' : RelayWorld) (hcache : rw'.plugin.cache = rw.plugin.cache)
    (hgranted : rw'.granted = rw.granted) (hserved : rw'.served = rw.served) :
    Resumed rw t (rw', none) :=
  .other (fun h => by rwa [hcache] at h) hgranted hserved
    fun t' ht => absurd ht (Option.not_mem_none t')

/-- The same, with a task left that is no fetch. -/
theorem Resumed.goesOn (rw' : RelayWorld) (next : Task) (hidle : next.fetching = none)
    (hcache : rw'.plugin.cache = rw.plugin.cache) (hgranted : rw'.granted = rw.granted)
    (hserved : rw'.served = rw.served) : Resumed rw t (rw', some next) :=
  .other (fun h => by rwa [hcache] at h) hgranted hserved fun t' ht => Option.some.inj ht ▸ hidle

theorem resumed_receiveUpload (userId : UserId) (upload : RelayUpload) (data : List UInt8) :
    Resumed rw (.receiving userId upload data) (rw.receiveUpload env userId upload data) := by
  unfold RelayWorld.receiveUpload
  split
  · rename_i hfull
    unfold RelayWorld.storeUpload
    cases hvacant : rw.plugin.cache.get upload.transferId with
    | some file => exact .goesOn _ _ rfl rfl rfl rfl
    | none => exact .bind (if_pos hfull) hvacant rfl rfl rfl rfl
  split
  · exact .ends _ rfl rfl rfl
  split
  · exact .goesOn _ _ rfl rfl rfl rfl
  · exact .goesOn _ _ rfl rfl rfl rfl
  · exact .goesOn _ _ rfl rfl rfl rfl
  · exact .ends _ rfl rfl rfl

theorem resumed (t : Task) : Resumed rw t (rw.resume rc env t) := by
  cases t with
  | authorize userId upload room =>
    unfold RelayWorld.resume RelayWorld.authorizeUpload RelayWorld.reject
    dsimp only
    split
    · exact .ends _ rfl rfl rfl
    split
    · exact .ends _ rfl rfl rfl
    split
    · exact .ends _ rfl rfl rfl
    · rename_i plugin hplugin
      have hcache : plugin.cache = rw.plugin.cache := by
        unfold Plugin.tryReserve at hplugin
        split at hplugin
        · exact (Option.some_ne_none plugin hplugin.symm).elim
        split at hplugin
        · exact (Option.some_ne_none plugin hplugin.symm).elim
        · obtain rfl := Option.some.inj hplugin
          rfl
      exact .goesOn _ _ rfl hcache rfl rfl
  | admitted userId upload =>
    unfold RelayWorld.resume
    dsimp only
    split
    · exact .ends _ rfl rfl rfl
    · exact .goesOn _ _ rfl rfl rfl rfl
  | receiving userId upload data => exact resumed_receiveUpload userId upload data
  | closing userId upload => exact .ends _ rfl rfl rfl
  | evicting ids =>
    cases ids with
    | nil => exact .ends _ rfl rfl rfl
    | cons id ids =>
      exact .other (fun h => get_evict h) rfl rfl fun t' ht => Option.some.inj ht ▸ rfl
  | fetchAuthorize userId id room =>
    unfold RelayWorld.resume RelayWorld.authorizeFetch RelayWorld.notFound
    dsimp only
    split
    · exact .ends _ rfl rfl rfl
    split
    · exact .grant rfl rfl rfl
    · exact .ends _ rfl rfl rfl
  | fetchServe userId id room =>
    unfold RelayWorld.resume RelayWorld.serveFetch RelayWorld.notFound
    dsimp only
    split
    · exact .ends _ rfl rfl rfl
    cases hfound : rw.plugin.cache.get id with
    | none => exact .ends _ rfl rfl rfl
    | some file => exact .serve hfound rfl rfl rfl

end Pieces

/-! ## Every run -/

section Runs

variable {cfg : Config} {rc : RelayConfig} {p : Pool RelayWorld Task}
  {m : RelayEnv × Pick RelayEvent}

/-- What a fetch knows between its lookups: a file under its id is in the room it read, and once it
is permitted the grant is on record. -/
def Task.KnowsRoom (rc : RelayConfig) (rw : RelayWorld) : Task → Prop
  | .fetchAuthorize _ id room =>
    ∀ file, rw.plugin.cache.get id = some file → rc.parseStr file.roomId = some room
  | .fetchServe userId id room =>
    (∀ file, rw.plugin.cache.get id = some file → rc.parseStr file.roomId = some room) ∧
      (userId, room) ∈ rw.granted
  | _ => True

theorem Task.knowsRoom_of_idle {rw : RelayWorld} {t : Task} (h : t.fetching = none) :
    t.KnowsRoom rc rw := by
  cases t with
  | fetchAuthorize | fetchServe => exact absurd h (Option.some_ne_none _)
  | _ => trivial

/-- The knowledge stands when each file under the id is an old one or in the room. -/
theorem Task.KnowsRoom.mono {rw rw' : RelayWorld} {t : Task} (h : t.KnowsRoom rc rw)
    (hgranted : rw.granted ⊆ rw'.granted)
    (hcache : ∀ f ∈ t.fetching, ∀ file, rw'.plugin.cache.get f.1 = some file →
      rw.plugin.cache.get f.1 = some file ∨ rc.parseStr file.roomId = some f.2) :
    t.KnowsRoom rc rw' := by
  cases t with
  | fetchAuthorize userId id room =>
    intro file hfile
    exact (hcache (id, room) rfl file hfile).elim (h file) fun hroom => hroom
  | fetchServe userId id room =>
    refine ⟨fun file hfile => ?_, hgranted h.2⟩
    exact (hcache (id, room) rfl file hfile).elim (h.1 file) fun hroom => hroom
  | _ => trivial

/-- The invariant of a running relay. -/
structure FetchesKnow (rc : RelayConfig) (p : Pool RelayWorld Task) : Prop where
  served : FetchAuthorized rc p.shared
  tasks : ∀ t ∈ p.tasks, t.KnowsRoom rc p.shared

theorem fetchesKnow_start {env : RelayEnv} (e : RelayEvent) (h : FetchesKnow rc p) :
    FetchesKnow rc ⟨(p.shared.start cfg rc env e).1,
      p.tasks ++ (p.shared.start cfg rc env e).2.toList⟩ := by
  obtain ⟨hplugin, hgranted, hserved⟩ :
      (p.shared.start cfg rc env e).1.plugin = p.shared.plugin ∧
        (p.shared.start cfg rc env e).1.granted = p.shared.granted ∧
        (p.shared.start cfg rc env e).1.served = p.shared.served := start_frame e
  have hold : ∀ {t : Task}, t.KnowsRoom rc p.shared →
      t.KnowsRoom rc (p.shared.start cfg rc env e).1 := fun ht =>
    ht.mono (by rw [hgranted]; exact List.Subset.refl _) fun f _ file hfile =>
      .inl (by rwa [hplugin] at hfile)
  refine ⟨?_, fun t ht => ?_⟩
  · unfold FetchAuthorized
    rw [hserved, hgranted]
    exact h.served
  · rw [List.mem_append, Option.mem_toList] at ht
    rcases ht with ht | ht
    · exact hold (h.tasks t ht)
    · rcases start_left ht with hidle | ⟨userId, id, room, file, rfl, hfile, hroom⟩
      · exact Task.knowsRoom_of_idle hidle
      · refine hold fun file' hfile' => ?_
        obtain rfl := Option.some.inj (hfile.symm.trans hfile')
        exact hroom

/-- The room a stored upload is for agrees with what the fetches of its id have read. -/
theorem fetchesKnow_resume {t : Task} {others : List Task} {next : RelayWorld × Option Task}
    (hnext : Resumed p.shared t next) (htask : t.KnowsRoom rc p.shared)
    (hothers : ∀ t' ∈ others, t'.KnowsRoom rc p.shared) (hserved : FetchAuthorized rc p.shared)
    (hapart : ∀ upload, t.storing = some upload →
      p.shared.plugin.cache.get upload.transferId = none → ∀ t' ∈ others, ∀ f ∈ t'.fetching,
        f.1 = upload.transferId → rc.parseStr upload.roomId = some f.2) :
    FetchAuthorized rc next.1 ∧ (∀ t' ∈ next.2, t'.KnowsRoom rc next.1) ∧
      ∀ t' ∈ others, t'.KnowsRoom rc next.1 := by
  cases hnext with
  | other hcache hgranted hsame hidle =>
    refine ⟨?_, fun t' ht => Task.knowsRoom_of_idle (hidle t' ht), fun t' ht => ?_⟩
    · unfold FetchAuthorized
      rw [hsame, hgranted]
      exact hserved
    · exact (hothers t' ht).mono (by rw [hgranted]; exact List.Subset.refl _)
        fun f _ file hfile => .inl (hcache hfile)
  | @bind _ _ upload file hstoring hvacant hroom hcache hgranted hsame =>
    refine ⟨?_, fun t' ht => absurd ht (Option.not_mem_none t'), fun t' ht => ?_⟩
    · unfold FetchAuthorized
      rw [hsame, hgranted]
      exact hserved
    · refine (hothers t' ht).mono (by rw [hgranted]; exact List.Subset.refl _)
        fun f hf file' hfile => ?_
      rw [hcache, Table.get_set] at hfile
      by_cases hid : f.1 = upload.transferId
      · rw [if_pos hid] at hfile
        obtain rfl := Option.some.inj hfile
        rw [hroom]
        exact .inr (hapart upload hstoring hvacant t' ht f hf hid)
      · rw [if_neg hid] at hfile
        exact .inl hfile
  | @grant userId id room rw' hcache hgranted hsame =>
    have hsub : p.shared.granted ⊆ rw'.granted := by
      rw [hgranted]
      exact List.subset_append_left _ _
    refine ⟨fun s hs => ?_, fun t' ht => ?_, fun t' ht => ?_⟩
    · rw [hsame] at hs
      exact ⟨(hserved s hs).1, hsub (hserved s hs).2⟩
    · obtain rfl := Option.some.inj ht
      refine ⟨fun file hfile => htask file (by rwa [hcache] at hfile), ?_⟩
      rw [hgranted]
      exact List.mem_append_right _ List.mem_cons_self
    · exact (hothers t' ht).mono hsub fun f _ file hfile => .inl (by rwa [hcache] at hfile)
  | @serve userId id room rw' file hfound hcache hgranted hsame =>
    refine ⟨fun s hs => ?_, fun t' ht => absurd ht (Option.not_mem_none t'), fun t' ht => ?_⟩
    · rw [hgranted]
      rw [hsame, List.mem_append, List.mem_singleton] at hs
      rcases hs with hs | rfl
      · exact hserved s hs
      · exact ⟨htask.1 file hfound, htask.2⟩
    · exact (hothers t' ht).mono (by rw [hgranted]; exact List.Subset.refl _)
        fun f _ file hfile => .inl (by rwa [hcache] at hfile)

/-- **One move** that binds ids apart from the fetches under way. -/
theorem fetchesKnow_step (hm : BindsApart rc p m) (h : FetchesKnow rc p) :
    FetchesKnow rc ((relayProgram cfg rc).step p m) := by
  rcases (relayProgram cfg rc).step_cases p m with
    heq | ⟨e, he, hs, ht⟩ | ⟨i, t, others, he, hi, hp, hs, ht⟩
  · rwa [heq]
  · have hnew : FetchesKnow rc ⟨(p.shared.start cfg rc m.1 e).1, _⟩ := fetchesKnow_start e h
    exact ⟨hs ▸ hnew.served, fun t hmem => by rw [hs]; exact hnew.tasks t (ht ▸ hmem)⟩
  · have hothers : ∀ t' ∈ others, t' ∈ p.tasks := fun t' hmem =>
      hp.mem_iff.mpr (List.mem_cons_of_mem t hmem)
    have hapart : ∀ upload, t.storing = some upload →
        p.shared.plugin.cache.get upload.transferId = none → ∀ t' ∈ others, ∀ f ∈ t'.fetching,
          f.1 = upload.transferId → rc.parseStr upload.roomId = some f.2 := by
      intro upload hstoring hvacant t' hmem
      simp only [BindsApart, he] at hm
      exact hm upload (by rw [hi]; exact hstoring) hvacant t' (hothers t' hmem)
    have hresumed : Resumed p.shared t (p.shared.resume rc m.1 t) := resumed t
    obtain ⟨hserved, hleft, hrest⟩ := fetchesKnow_resume hresumed
      (h.tasks t (List.mem_of_getElem? hi)) (fun t' hmem => h.tasks t' (hothers t' hmem))
      h.served hapart
    refine ⟨hs ▸ hserved, fun t' hmem => ?_⟩
    rw [ht.mem_iff, List.mem_append, Option.mem_toList] at hmem
    rw [hs]
    exact hmem.elim (hleft t') (hrest t')

end Runs

/-- **Fetches are authorized in the file's own room**, in every state of every run in which no
upload binds an id of a fetch under way to another room. -/
theorem fetchAuthorized_run (cfg : Config) (rc : RelayConfig) (w : World)
    (moves : List (RelayEnv × Pick RelayEvent))
    (hapart : Always (relayProgram cfg rc).step (BindsApart rc) ⟨RelayWorld.new w, []⟩ moves)
    (pre : List (RelayEnv × Pick RelayEvent)) (hpre : pre <+: moves) :
    FetchAuthorized rc ((relayProgram cfg rc).run ⟨RelayWorld.new w, []⟩ pre).shared := by
  have hinit : FetchesKnow rc ⟨RelayWorld.new w, []⟩ :=
    ⟨fun s hs => absurd hs List.not_mem_nil, fun t ht => absurd ht List.not_mem_nil⟩
  exact (hapart.invariant_all (fun p m hm h => fetchesKnow_step hm h) hinit hpre).served

/-! ## Two runs -/

/-- Reads the texts of Root and of the room `07…07`. -/
def sampleRelay : RelayConfig where
  ttl := 1800
  evictOnRoomClear := true
  maxTotalSize := 1000
  maxFileSize := 100
  parseStr := fun s =>
    if s = "00000000-0000-0000-0000-000000000000" then some rootRoomUuid
    else if s = "07070707-0707-0707-0707-070707070707" then some (Bytes.rep 16 7)
    else none
  uuidText := fun u =>
    if u = Bytes.rep 16 7 then "07070707-0707-0707-0707-070707070707"
    else "00000000-0000-0000-0000-000000000000"
  showSize := fun n => toString n

/-- The administrator eve and bob, and a room that bob may not enter. -/
def sampleSecret : World :=
  run sampleConfig (World.boot sampleAdminStore) (sampleLogin 1 (Bytes.rep 32 9) "eve" ++
    sampleLogin 2 (Bytes.rep 32 8) "bob" ++
    [sampleMsg 1 (.createRoom "secret" none none),
      sampleMsg 1 (.setRoomAcl (Bytes.rep 16 7).data true
        [⟨"default", 0, Permissions.enter, true, true⟩] 0)])

def sampleRelayEnv (now : Nat) : RelayEnv where
  server := sampleEnv
  now := now
  read := .data [1, 2, 3]
  written := true
  cancelled := false

/-- eve uploads three bytes: the request, then its four pieces as task `i`. -/
def sampleStoring (now : Nat) (roomId : String) (i : Nat) : List (RelayEnv × Pick RelayEvent) :=
  (sampleRelayEnv now, .start (.upload 1 ⟨"t1", roomId, "a.txt", 3, "text/plain"⟩)) ::
    List.replicate 4 (sampleRelayEnv now, .resume i)

/-- bob fetches a file of Root. -/
def sampleFetch : List (RelayEnv × Pick RelayEvent) :=
  sampleStoring 0 "00000000-0000-0000-0000-000000000000" 0 ++
    [(sampleRelayEnv 1, .start (.fetch 2 "t1")), (sampleRelayEnv 1, .resume 0),
      (sampleRelayEnv 1, .resume 0)]

theorem fetchAuthorized_sample :
    let p := (relayProgram sampleConfig sampleRelay).run ⟨RelayWorld.new sampleSecret, []⟩
      sampleFetch
    p.shared.served ≠ [] ∧ FetchAuthorized sampleRelay p.shared :=
  ⟨by decide +kernel, fetchAuthorized_run sampleConfig sampleRelay sampleSecret sampleFetch
    (by decide +kernel) sampleFetch (List.prefix_refl _)⟩

/-- bob's fetch is permitted for the file of Root; the file expires, and eve uploads another one
under the same id into the secret room before bob's second lookup. -/
def sampleRebound : List (RelayEnv × Pick RelayEvent) :=
  sampleStoring 0 "00000000-0000-0000-0000-000000000000" 0 ++
    [(sampleRelayEnv 2000, .start (.fetch 2 "t1")), (sampleRelayEnv 2000, .resume 0),
      (sampleRelayEnv 2000, .start .sweep), (sampleRelayEnv 2000, .resume 1),
      (sampleRelayEnv 2000, .resume 1)] ++
    sampleStoring 2000 "07070707-0707-0707-0707-070707070707" 1 ++
    [(sampleRelayEnv 2000, .resume 0)]

/-- **A fetch streams a file of a room that its user may not enter** and for which it was never
granted ENTER. -/
theorem not_fetchAuthorized :
    let p := (relayProgram sampleConfig sampleRelay).run ⟨RelayWorld.new sampleSecret, []⟩
      sampleRebound
    ¬ FetchAuthorized sampleRelay p.shared ∧
      (∃ s ∈ p.shared.served, s.userId = 2 ∧
        sampleRelay.parseStr s.file.roomId = some (Bytes.rep 16 7)) ∧
      (2, Bytes.rep 16 7) ∉ p.shared.granted ∧
      p.shared.permits 2 (Bytes.rep 16 7) Permissions.enter = false := by
  decide +kernel

end Rumble.Relay

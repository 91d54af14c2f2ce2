import Rumble.Relay.State
import Mathlib.Algebra.Order.BigOperators.Group.List
import Mathlib.Algebra.Order.Ring.Nat

/-!
# Quota accounting

`total_cached` is the bytes of the cached files and the reservations of the uploads that are not
stored yet, at every point of every interleaving. Each operation on the counter settles with the
cache or with the task that holds the reservation; `quota_exact` puts them together with the
balance rule of interleaved tasks.
-/

namespace Rumble.Relay

open Rumble.Lib Rumble.Server Interleaved

/-- The reservation a task holds. -/
def Task.reserved : Task → Nat
  | .admitted _ upload | .receiving _ upload _ | .closing _ upload => upload.fileSize
  | .authorize .. | .evicting _ | .fetchAuthorize .. | .fetchServe .. => 0

/-- No more was read than declared. -/
def Task.WithinSize : Task → Prop
  | .receiving _ upload data => data.length ≤ upload.fileSize
  | _ => True

/-- The bytes of the cached files. -/
def Plugin.cachedBytes (p : Plugin) : Nat := p.cache.total CachedFile.fileSize

/-- The counter is the cached bytes and `reserved` more, within the limit. -/
structure Plugin.Counts (rc : RelayConfig) (p : Plugin) (reserved : Nat) : Prop where
  exact : p.totalCached = p.cachedBytes + reserved
  bounded : p.totalCached ≤ rc.maxTotalSize

/-! ## Operations on the counter -/

namespace Plugin.Counts

variable {rc : RelayConfig} {p : Plugin} {n amount : Nat}

theorem refund (h : p.Counts rc (amount + n)) : (p.releaseQuota amount).Counts rc n := by
  have hexact := h.exact
  have hbounded := h.bounded
  refine ⟨?_, ?_⟩
  · show p.totalCached - amount = p.cachedBytes + n
    omega
  · show p.totalCached - amount ≤ rc.maxTotalSize
    omega

theorem reserve {p' : Plugin} (h : p.Counts rc n) (hp : p.tryReserve rc amount = some p') :
    p'.Counts rc (amount + n) := by
  unfold tryReserve at hp
  split at hp
  · exact (Option.some_ne_none p' hp.symm).elim
  split at hp
  · exact (Option.some_ne_none p' hp.symm).elim
  rename_i hlimit
  obtain rfl := Option.some.inj hp
  have hexact := h.exact
  refine ⟨?_, ?_⟩
  · show p.totalCached + amount = p.cachedBytes + (amount + n)
    omega
  · show p.totalCached + amount ≤ rc.maxTotalSize
    omega

/-- An evicted file takes its bytes with it. -/
theorem evict (h : p.Counts rc n) (id : String) : (p.evict id).Counts rc n := by
  unfold Plugin.evict
  cases hfile : p.cache.get id with
  | none => exact h
  | some file =>
    have hbytes : file.fileSize + (p.cache.del id).total CachedFile.fileSize = p.cachedBytes :=
      Table.total_del CachedFile.fileSize hfile
    have hexact := h.exact
    have hmid : Plugin.Counts rc { p with cache := p.cache.del id } (file.fileSize + n) := by
      refine ⟨?_, h.bounded⟩
      show p.totalCached = (p.cache.del id).total CachedFile.fileSize + (file.fileSize + n)
      omega
    exact hmid.refund

/-- A stored file takes over its reservation. -/
theorem store {id : String} {file : CachedFile} (h : p.Counts rc (file.fileSize + n))
    (hvacant : p.cache.get id = none) :
    Plugin.Counts rc { p with cache := p.cache.set id file } n := by
  have hbytes : (p.cache.set id file).total CachedFile.fileSize = file.fileSize + p.cachedBytes :=
    Table.total_set CachedFile.fileSize hvacant
  have hexact := h.exact
  refine ⟨?_, h.bounded⟩
  show p.totalCached = (p.cache.set id file).total CachedFile.fileSize + n
  omega

end Plugin.Counts

/-! ## Pieces of work -/

/-- What a piece owes: the counter with the reservation of the task it leaves, and that task within
its size. -/
def Settles (rc : RelayConfig) (n : Nat) (next : RelayWorld × Option Task) : Prop :=
  next.1.plugin.Counts rc (held Task.reserved next.2 + n) ∧ ∀ t ∈ next.2, t.WithinSize

section Pieces

variable {cfg : Config} {rc : RelayConfig} {env : RelayEnv} {rw : RelayWorld} {n : Nat}

/-- Work that ends without touching the plugin. -/
theorem settles_none {rw' : RelayWorld} (hp : rw'.plugin = rw.plugin)
    (h : rw.plugin.Counts rc n) : Settles rc n (rw', none) := by
  refine ⟨?_, fun t ht => absurd ht (Option.not_mem_none t)⟩
  rw [hp]
  show rw.plugin.Counts rc (0 + n)
  rwa [Nat.zero_add]

/-- An abandoned upload gives its reservation back. -/
theorem settles_refund {size : Nat} (h : rw.plugin.Counts rc (size + n)) :
    Settles rc n (rw.refund size, none) := by
  have hrefund : (rw.refund size).plugin.Counts rc n := h.refund
  exact settles_none rfl hrefund

/-- Work that goes on with what it holds. -/
theorem settles_some {rw' : RelayWorld} {t : Task} (h : rw'.plugin.Counts rc (t.reserved + n))
    (ht : t.WithinSize) : Settles rc n (rw', some t) :=
  ⟨h, fun _ ht' => Option.some.inj ht' ▸ ht⟩

/-- Work that goes on holding nothing. -/
theorem settles_idle {rw' : RelayWorld} {t : Task} (h : rw'.plugin.Counts rc n)
    (hzero : t.reserved = 0) (ht : t.WithinSize) : Settles rc n (rw', some t) := by
  refine settles_some ?_ ht
  rwa [hzero, Nat.zero_add]

theorem settles_start (e : RelayEvent) (h : rw.plugin.Counts rc n) :
    Settles rc n (rw.start cfg rc env e) := by
  cases e with
  | server e => exact settles_none rfl h
  | upload userId upload =>
    unfold RelayWorld.start
    dsimp only
    split
    swap
    · exact settles_none rfl h
    unfold RelayWorld.handleUpload
    split
    · exact settles_none rfl h
    split
    · exact settles_none rfl h
    split
    · exact settles_none rfl h
    · exact settles_idle h rfl trivial
  | fetch userId transferId =>
    unfold RelayWorld.start
    dsimp only
    split
    swap
    · exact settles_none rfl h
    unfold RelayWorld.handleFetch
    split
    · exact settles_none rfl h
    split
    · exact settles_none rfl h
    · exact settles_idle h rfl trivial
  | clearRoom roomId => exact settles_idle h rfl trivial
  | sweep => exact settles_idle h rfl trivial

theorem settles_storeUpload {userId : UserId} {upload : RelayUpload} {data : List UInt8}
    (hsize : data.length = upload.fileSize) (now : Nat)
    (h : rw.plugin.Counts rc (upload.fileSize + n)) :
    Settles rc n (rw.storeUpload now userId upload data) := by
  unfold RelayWorld.storeUpload
  cases hvacant : rw.plugin.cache.get upload.transferId with
  | some file => exact settles_some h trivial
  | none =>
    refine settles_none rfl ?_
    refine Plugin.Counts.store ?_ hvacant
    show rw.plugin.Counts rc (data.length + n)
    rwa [hsize]

theorem settles_receiveUpload {userId : UserId} {upload : RelayUpload} {data : List UInt8}
    (hsize : data.length ≤ upload.fileSize) (h : rw.plugin.Counts rc (upload.fileSize + n)) :
    Settles rc n (rw.receiveUpload env userId upload data) := by
  unfold RelayWorld.receiveUpload
  split
  · rename_i hfull
    exact settles_storeUpload (Nat.le_antisymm hsize hfull) env.now h
  have hrefund : Settles rc n (rw.refund upload.fileSize, none) := settles_refund h
  split
  · exact hrefund
  split
  · refine settles_some h ?_
    show (data ++ List.take _ _).length ≤ upload.fileSize
    rw [List.length_append, List.length_take]
    omega
  · exact settles_some h trivial
  · exact settles_some h trivial
  · exact hrefund

theorem settles_resume (t : Task) (ht : t.WithinSize)
    (h : rw.plugin.Counts rc (t.reserved + n)) : Settles rc n (rw.resume rc env t) := by
  have hfree : t.reserved = 0 → rw.plugin.Counts rc n := fun h0 => by
    rwa [h0, Nat.zero_add] at h
  cases t with
  | authorize userId upload room =>
    unfold RelayWorld.resume RelayWorld.authorizeUpload
    dsimp only
    split
    · exact settles_none rfl (hfree rfl)
    split
    · exact settles_none rfl (hfree rfl)
    split
    · exact settles_none rfl (hfree rfl)
    · rename_i plugin hplugin
      exact settles_some ((hfree rfl).reserve hplugin) trivial
  | admitted userId upload =>
    unfold RelayWorld.resume
    dsimp only
    split
    · exact settles_refund h
    · exact settles_some h (Nat.zero_le _)
  | receiving userId upload data => exact settles_receiveUpload ht h
  | closing userId upload => exact settles_refund h
  | evicting ids =>
    cases ids with
    | nil => exact settles_none rfl (hfree rfl)
    | cons id ids => exact settles_idle ((hfree rfl).evict id) rfl trivial
  | fetchAuthorize userId transferId room =>
    unfold RelayWorld.resume RelayWorld.authorizeFetch
    dsimp only
    split
    · exact settles_none rfl (hfree rfl)
    split
    · exact settles_idle (hfree rfl) rfl trivial
    · exact settles_none rfl (hfree rfl)
  | fetchServe userId transferId room =>
    unfold RelayWorld.resume RelayWorld.serveFetch
    dsimp only
    split
    · exact settles_none rfl (hfree rfl)
    split
    · exact settles_none rfl (hfree rfl)
    · exact settles_none rfl (hfree rfl)

end Pieces

/-! ## Every run -/

/-- The reservations of the uploads that are not stored yet. -/
def reservedBytes (p : Pool RelayWorld Task) : Nat := (p.tasks.map Task.reserved).sum

/-- The quota of a running relay. Nothing that is cached or reserved exceeds the counter, so
releasing it never clamps. -/
structure QuotaSound (rc : RelayConfig) (p : Pool RelayWorld Task) : Prop where
  exact : p.shared.plugin.totalCached = p.shared.plugin.cachedBytes + reservedBytes p
  bounded : p.shared.plugin.totalCached ≤ rc.maxTotalSize
  refundable : ∀ t ∈ p.tasks, t.reserved ≤ p.shared.plugin.totalCached
  evictable : ∀ id file, p.shared.plugin.cache.get id = some file →
    file.fileSize ≤ p.shared.plugin.totalCached
  drained : p.shared.plugin.cache = ∅ → (∀ t ∈ p.tasks, t.reserved = 0) →
    p.shared.plugin.totalCached = 0

theorem quotaSound_of_counts {rc : RelayConfig} {p : Pool RelayWorld Task}
    (h : p.shared.plugin.Counts rc (reservedBytes p)) : QuotaSound rc p where
  exact := h.exact
  bounded := h.bounded
  refundable := fun t ht => by
    have hle : t.reserved ≤ reservedBytes p := List.le_sum_of_mem (List.mem_map_of_mem ht)
    have hexact := h.exact
    omega
  evictable := fun id file hfile => by
    have hle : file.fileSize ≤ p.shared.plugin.cachedBytes :=
      Table.le_total CachedFile.fileSize hfile
    have hexact := h.exact
    omega
  drained := fun hempty hidle => by
    have hcached : p.shared.plugin.cachedBytes = 0 := by
      unfold Plugin.cachedBytes
      rw [hempty]
      rfl
    have hreserved : reservedBytes p = 0 := List.sum_eq_zero fun x hx => by
      obtain ⟨t, ht, rfl⟩ := List.mem_map.mp hx
      exact hidle t ht
    have hexact := h.exact
    omega

/-- **The quota counter is exact.** Over any interleaving of uploads, evictions, fetches, sweeps and
server events, the counter is the cached bytes and the open reservations, it stays within
`max_total_size`, no release clamps, and it is zero when nothing is cached or reserved. -/
theorem quota_exact (cfg : Config) (rc : RelayConfig) (w : World)
    (moves : List (RelayEnv × Pick RelayEvent)) :
    QuotaSound rc ((relayProgram cfg rc).run ⟨RelayWorld.new w, []⟩ moves) := by
  have hinit : Balanced Task.reserved (fun rw n => rw.plugin.Counts rc n) Task.WithinSize
      ⟨RelayWorld.new w, []⟩ :=
    ⟨⟨rfl, Nat.zero_le _⟩, fun t ht => absurd ht List.not_mem_nil⟩
  have hstart : ∀ env rw e n, rw.plugin.Counts rc n →
      Settles rc n ((relayProgram cfg rc).start env rw e) := fun _ _ e _ h => settles_start e h
  have hresume : ∀ env rw t n, t.WithinSize → rw.plugin.Counts rc (t.reserved + n) →
      Settles rc n ((relayProgram cfg rc).resume env rw t) := fun _ _ t _ ht h =>
    settles_resume t ht h
  have hrun := (relayProgram cfg rc).balanced_run Task.reserved hstart hresume moves hinit
  exact quotaSound_of_counts hrun.shared

end Rumble.Relay

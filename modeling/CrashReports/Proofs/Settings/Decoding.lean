import CrashReports.Proofs.Outcome
import CrashReports.Proofs.Toml.Table
import CrashReports.Settings.Raw

/-!
# Reading the entries of settings

Settings as a document with the tables `server` and `database` holds them: the tables may
stand in either order and so may the entries of each.  Such a document is decoded to settings
with the same strings and integers or, if one of the integers is beyond its type, not at all
(`ofTable_eq_ok_iff`).
-/

namespace CrashReports

open Toml (Table Value)

/-! ### Integers of a fixed width -/

namespace Toml.Decoder

theorem below_integer_eq_ok_iff {bound n : Nat} {expected : String} {i : Int} :
    below bound expected (.integer i) = .ok n ↔ n < bound ∧ (n : Int) = i := by
  unfold below
  dsimp only
  by_cases h : 0 ≤ i ∧ i < bound
  · rw [if_pos h, Except.ok.injEq]
    omega
  · rw [if_neg h]
    simp only [reduceCtorEq, false_iff]
    omega

/-- A word is read from an integer if it is that integer. -/
theorem word_integer_eq_ok_iff {α : Type} {ofNat : Nat → α} {toNat : α → Nat} {bound : Nat}
    (hofNat : ∀ n < bound, toNat (ofNat n) = n) (htoNat : ∀ w, ofNat (toNat w) = w)
    (hlt : ∀ w, toNat w < bound) {expected : String} {i : Int} {w : α} :
    (below bound expected (.integer i)).map ofNat = .ok w ↔ (toNat w : Int) = i := by
  simp only [map_eq_ok_iff, below_integer_eq_ok_iff]
  constructor
  · rintro ⟨n, ⟨hn, hi⟩, rfl⟩
    rw [hofNat n hn, hi]
  · intro h
    exact ⟨toNat w, ⟨hlt w, h⟩, htoNat w⟩

theorem word16_integer_eq_ok_iff {i : Int} {w : UInt16} :
    word16 (.integer i) = .ok w ↔ (w.toNat : Int) = i :=
  word_integer_eq_ok_iff (fun _ => UInt16.toNat_ofNat_of_lt') (fun _ => UInt16.ofNat_toNat)
    UInt16.toNat_lt

theorem word32_integer_eq_ok_iff {i : Int} {w : UInt32} :
    word32 (.integer i) = .ok w ↔ (w.toNat : Int) = i :=
  word_integer_eq_ok_iff (fun _ => UInt32.toNat_ofNat_of_lt') (fun _ => UInt32.ofNat_toNat)
    UInt32.toNat_lt

theorem word64_integer_eq_ok_iff {i : Int} {w : UInt64} :
    word64 (.integer i) = .ok w ↔ (w.toNat : Int) = i :=
  word_integer_eq_ok_iff (fun _ => UInt64.toNat_ofNat_of_lt') (fun _ => UInt64.ofNat_toNat)
    UInt64.toNat_lt

theorem optional_of_get? {α : Type} {key : String} {f : Decoder α} {t : Table} {v : Value}
    (h : t.get? key = some v) : optional key f t = (f v).map some := by
  rw [optional, h]

/-- An entry that may be missing is read as one that holds the integer, if there is one. -/
theorem optional_word64_eq_ok_iff {key : String} {t : Table} {o : Option Int}
    (h : t.get? key = o.map .integer) {w : Option UInt64} :
    optional key word64 t = .ok w ↔ w.map (fun w => (w.toNat : Int)) = o := by
  cases o with
  | none =>
    rw [optional, h]
    simp only [Option.map_none, Except.ok.injEq, Option.map_eq_none_iff]
    exact eq_comm
  | some i =>
    rw [optional_of_get? h]
    simp only [map_eq_ok_iff, word64_integer_eq_ok_iff, Option.map_eq_some_iff]
    exact exists_congr fun a => and_comm.trans (and_congr_left' eq_comm)

/-- Nothing is passed over in a table all of whose entries are known. -/
theorem skipOthers_eq_ok {known : List String} {t : Table} (h : t.map Prod.fst ⊆ known) :
    skipOthers known t = .ok () := by
  have hall : (t.all fun e => known.contains e.1 || e.2.fits .any128) = true := by
    rw [List.all_eq_true]
    intro e he
    simp [h (List.mem_map_of_mem he)]
  rw [skipOthers, if_pos hall]

end Toml.Decoder

namespace RawSettings

/-! ### Entries -/

/-- The entries of the table `server`. -/
def serverEntries (s : RawSettings) : Table :=
  [("port", .integer s.port), ("host", .string s.host)]

/-- The entries of the table `database`. -/
def databaseEntries (s : RawSettings) : Table :=
  [("path", .string s.path), ("max_pool_size", .integer s.maxPoolSize)] ++
    s.busyTimeoutSecs.toList.map fun secs => ("busy_timeout_secs", .integer secs)

/-- The tables hold the settings, in any order and with their entries in any order. -/
def AreSections (s : RawSettings) (sections : List (String × Table)) : Prop :=
  ∃ server database : Table, server.Perm s.serverEntries ∧ database.Perm s.databaseEntries ∧
    sections.Perm [("server", server), ("database", database)]

/-- The settings hold exactly what was written, and the default of what was left out. -/
structure IsHeldBy (s : RawSettings) (t : Settings) : Prop where
  port : (t.server.port.toNat : Int) = s.port
  host : t.server.host = s.host
  path : t.database.path = s.path
  maxPoolSize : (t.database.maxPoolSize.toNat : Int) = s.maxPoolSize
  busyTimeoutSecs : (t.database.busyTimeoutSecs.toNat : Int) = s.busyTimeoutSecs.getD 5

open Toml.Decoder

variable {s : RawSettings}

theorem nodup_serverEntries (s : RawSettings) : (s.serverEntries.map Prod.fst).Nodup := by
  simp [serverEntries]

theorem nodup_databaseEntries (s : RawSettings) : (s.databaseEntries.map Prod.fst).Nodup := by
  cases hbusy : s.busyTimeoutSecs <;> simp [databaseEntries, hbusy]

theorem serverDecoder_eq_ok_iff {server : Table} (h : server.Perm s.serverEntries)
    {kind : Toml.TableKind} {t : ServerSettings} :
    ServerSettings.decoder (.table kind server) = .ok t ↔
      (t.port.toNat : Int) = s.port ∧ t.host = s.host := by
  have hget : ∀ key, server.get? key = s.serverEntries.get? key := fun key =>
    (Table.get?_perm h.symm s.nodup_serverEntries).symm
  have hport : server.get? "port" = some (.integer s.port) := hget _
  have hhost : server.get? "host" = some (.string s.host) := hget _
  have hknown : server.map Prod.fst ⊆ ["host", "port"] := by
    refine List.Subset.trans (h.map Prod.fst).subset ?_
    simp [serverEntries]
  simp only [ServerSettings.decoder, record, skipOthers_eq_ok hknown, optional_of_get? hhost,
    optional_of_get? hport, string, required, map_ok, pure_eq_ok, ok_bind, bind_eq_ok_iff,
    map_eq_ok_iff, word16_integer_eq_ok_iff, Except.ok.injEq, exists_exists_and_eq_and,
    exists_eq_left']
  constructor
  · rintro ⟨port, hport, rfl⟩
    exact ⟨hport, rfl⟩
  · rintro ⟨hport, hhost⟩
    exact ⟨t.port, hport, by rw [← hhost]⟩

theorem databaseDecoder_eq_ok_iff {database : Table} (h : database.Perm s.databaseEntries)
    {kind : Toml.TableKind} {t : DatabaseSettings} :
    DatabaseSettings.decoder (.table kind database) = .ok t ↔
      t.path = s.path ∧ (t.maxPoolSize.toNat : Int) = s.maxPoolSize ∧
        (t.busyTimeoutSecs.toNat : Int) = s.busyTimeoutSecs.getD 5 := by
  have hget : ∀ key, database.get? key = s.databaseEntries.get? key := fun key =>
    (Table.get?_perm h.symm s.nodup_databaseEntries).symm
  have hpath : database.get? "path" = some (.string s.path) := hget _
  have hpool : database.get? "max_pool_size" = some (.integer s.maxPoolSize) := hget _
  have hbusy : database.get? "busy_timeout_secs" = s.busyTimeoutSecs.map .integer := by
    rw [hget]
    cases hsecs : s.busyTimeoutSecs <;> simp [databaseEntries, hsecs, Table.get?]
  have hknown : database.map Prod.fst ⊆ ["busy_timeout_secs", "max_pool_size", "path"] := by
    refine List.Subset.trans (h.map Prod.fst).subset ?_
    cases hsecs : s.busyTimeoutSecs <;> simp [databaseEntries, hsecs]
  simp only [DatabaseSettings.decoder, record, skipOthers_eq_ok hknown, optional_of_get? hpool,
    optional_of_get? hpath, string, required, map_ok, pure_eq_ok, ok_bind, bind_eq_ok_iff,
    optional_word64_eq_ok_iff hbusy, map_eq_ok_iff, word32_integer_eq_ok_iff, Except.ok.injEq,
    exists_exists_and_eq_and, exists_eq_left']
  constructor
  · rintro ⟨busy, hbusy, pool, hpool, rfl⟩
    refine ⟨rfl, hpool, ?_⟩
    rw [← hbusy]
    cases busy <;> rfl
  · rintro ⟨hpath, hpool, hbusy⟩
    obtain ⟨path, pool, busy⟩ := t
    cases hsecs : s.busyTimeoutSecs with
    | none =>
      rw [hsecs] at hbusy
      have hdefault : busy = defaultBusyTimeoutSecs := UInt64.toNat_inj.1 (Int.ofNat_inj.1 hbusy)
      exact ⟨none, rfl, pool, hpool, by rw [hdefault, ← hpath]; rfl⟩
    | some secs =>
      rw [hsecs] at hbusy
      exact ⟨some busy, congrArg some hbusy, pool, hpool, by rw [← hpath]; rfl⟩

/-- A document that holds the settings is decoded to settings that hold them. -/
theorem ofTable_eq_ok_iff {sections : List (String × Table)} (h : s.AreSections sections)
    {t : Settings} : Settings.ofTable (Toml.tableOf sections) = .ok t ↔ s.IsHeldBy t := by
  obtain ⟨server, database, hserver, hdatabase, hsections⟩ := h
  have hperm : (Toml.tableOf sections).Perm
      [("server", .table .header server), ("database", .table .header database)] :=
    hsections.map _
  have hget : ∀ key, (Toml.tableOf sections).get? key = _ := fun key =>
    (Table.get?_perm hperm.symm (by simp)).symm
  have hserver' : (Toml.tableOf sections).get? "server" = some (.table .header server) := hget _
  have hdatabase' : (Toml.tableOf sections).get? "database" = some (.table .header database) :=
    hget _
  have hknown : (Toml.tableOf sections).map Prod.fst ⊆ ["database", "server"] := by
    refine List.Subset.trans (hperm.map Prod.fst).subset ?_
    simp
  simp only [Settings.ofTable, skipOthers_eq_ok hknown, optional_of_get? hdatabase',
    optional_of_get? hserver', required, pure_eq_ok, ok_bind, bind_eq_ok_iff, map_eq_ok_iff,
    databaseDecoder_eq_ok_iff hdatabase, serverDecoder_eq_ok_iff hserver, Except.ok.injEq,
    exists_exists_and_eq_and, exists_eq_left']
  constructor
  · rintro ⟨db, ⟨hpath, hpool, hbusy⟩, srv, ⟨hport, hhost⟩, rfl⟩
    exact ⟨hport, hhost, hpath, hpool, hbusy⟩
  · rintro ⟨hport, hhost, hpath, hpool, hbusy⟩
    exact ⟨t.database, ⟨hpath, hpool, hbusy⟩, t.server, ⟨hport, hhost⟩, rfl⟩

end RawSettings

end CrashReports

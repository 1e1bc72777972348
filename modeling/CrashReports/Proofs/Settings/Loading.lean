import CrashReports.Proofs.Settings.Decoding
import CrashReports.Proofs.Toml.Document

/-!
# Loading settings

Settings are written as a document with the tables `server` and `database`, whatever the
layout (`IsWrittenAs`).  Loading such a document gives the settings back, exactly if they make
sense (`IsLoadedFrom`).  If they do not, although every integer fits its type, the error is what
is said of the first key whose value does not (`complaint?`).
-/

namespace CrashReports

open Toml (IsBareKey IsDocument IsGap IsLineRest Statement WritesValue)
open Toml (isSpaces_nil isSpaces_one)

/-! ### Faults -/

theorem Settings.ofDocument_eq_ok_iff {d : Toml.Table} {t : Settings} :
    Settings.ofDocument d = .ok t ↔ Settings.ofTable d = .ok t ∧ t.fault? = none := by
  unfold Settings.ofDocument
  cases htable : Settings.ofTable d with
  | error e => cases e <;> simp
  | ok u =>
    dsimp only
    cases hfault : u.fault? with
    | none =>
      simp only [Except.ok.injEq]
      exact ⟨fun h => ⟨h, h ▸ hfault⟩, And.left⟩
    | some f =>
      simp only [reduceCtorEq, Except.ok.injEq, false_iff]
      rintro ⟨rfl, hnone⟩
      rw [hfault] at hnone
      cases hnone

theorem Settings.ofDocument_fault {d : Toml.Table} {t : Settings} {f : SettingsFault}
    (htable : Settings.ofTable d = .ok t) (hfault : t.fault? = some f) :
    Settings.ofDocument d = .error (.fault f) := by
  simp [Settings.ofDocument, htable, hfault]

namespace RawSettings

/-- Settings that make sense. -/
structure IsValid (s : RawSettings) : Prop where
  port : 1 ≤ s.port ∧ s.port ≤ 65535
  host : s.host ≠ ""
  path : s.path ≠ ""
  maxPoolSize : 1 ≤ s.maxPoolSize ∧ s.maxPoolSize ≤ 4294967295
  busyTimeoutSecs : ∀ secs ∈ s.busyTimeoutSecs, 1 ≤ secs ∧ secs ≤ 18446744073709551615

/-- Settings whose integers all fit their types. -/
structure Fits (s : RawSettings) : Prop where
  port : 0 ≤ s.port ∧ s.port ≤ 65535
  maxPoolSize : 0 ≤ s.maxPoolSize ∧ s.maxPoolSize ≤ 4294967295
  busyTimeoutSecs : ∀ secs ∈ s.busyTimeoutSecs, 0 ≤ secs ∧ secs ≤ 18446744073709551615

/-- What is said if a demand is not met. -/
def demand (met : Prop) [Decidable met] (message : String) : Option String :=
  if met then none else some message

/-- What is said of the first value that does not make sense, in the order of the keys. -/
def complaint? (s : RawSettings) : Option String :=
  (demand (1 ≤ s.port)
    ("server.port must be between 1 and 65535, got " ++ String.ofList (Text.signed s.port))).or <|
  (demand (s.host ≠ "") "server.host must be non-empty").or <|
  (demand (s.path ≠ "") "database.path must be non-empty").or <|
  (demand (1 ≤ s.maxPoolSize)
    ("database.max_pool_size must be > 0, got " ++ String.ofList (Text.signed s.maxPoolSize))).or <|
  s.busyTimeoutSecs.bind fun secs => demand (1 ≤ secs)
    ("database.busy_timeout_secs must be > 0, got " ++ String.ofList (Text.signed secs))

/-- The text is a document that holds the settings. -/
def IsWrittenAs (s : RawSettings) (text : String) : Prop :=
  ∃ sections, s.AreSections sections ∧
    IsDocument (sections.flatMap Toml.statementsOf) text.toList

/-- What must come of loading a text that holds the settings. -/
structure IsLoadedFrom (s : RawSettings) (text : String) : Prop where
  exists_iff : (∃ t, Settings.parse text = .ok t) ↔ s.IsValid
  isHeldBy : ∀ t, Settings.parse text = .ok t → s.IsHeldBy t
  fault : s.Fits → ¬ s.IsValid →
    ∃ f, Settings.parse text = .error (.fault f) ∧ s.complaint? = some f.message

variable {s : RawSettings}

theorem IsValid.fits (h : s.IsValid) : s.Fits where
  port := ⟨Int.le_trans (by decide) h.port.1, h.port.2⟩
  maxPoolSize := ⟨Int.le_trans (by decide) h.maxPoolSize.1, h.maxPoolSize.2⟩
  busyTimeoutSecs secs hsecs :=
    ⟨Int.le_trans (by decide) (h.busyTimeoutSecs secs hsecs).1, (h.busyTimeoutSecs secs hsecs).2⟩

theorem Fits.exists_isHeldBy (h : s.Fits) : ∃ t, s.IsHeldBy t := by
  have hbusy : 0 ≤ s.busyTimeoutSecs.getD 5 ∧ s.busyTimeoutSecs.getD 5 ≤ 18446744073709551615 := by
    cases hsecs : s.busyTimeoutSecs with
    | none => decide
    | some secs => exact h.busyTimeoutSecs secs hsecs
  obtain ⟨⟨hport, hport'⟩, ⟨hpool, hpool'⟩, -⟩ := h
  have hport16 : s.port.toNat < UInt16.size := by
    change _ < 65536
    omega
  have hpool32 : s.maxPoolSize.toNat < UInt32.size := by
    change _ < 4294967296
    omega
  have hbusy64 : (s.busyTimeoutSecs.getD 5).toNat < UInt64.size := by
    change _ < 18446744073709551616
    omega
  refine ⟨⟨⟨UInt16.ofNat s.port.toNat, s.host⟩, ⟨s.path, UInt32.ofNat s.maxPoolSize.toNat,
    UInt64.ofNat (s.busyTimeoutSecs.getD 5).toNat⟩⟩, ?_, rfl, rfl, ?_, ?_⟩
  · rw [UInt16.toNat_ofNat_of_lt' hport16, Int.toNat_of_nonneg hport]
  · rw [UInt32.toNat_ofNat_of_lt' hpool32, Int.toNat_of_nonneg hpool]
  · rw [UInt64.toNat_ofNat_of_lt' hbusy64, Int.toNat_of_nonneg hbusy.1]

/-- A word does not make sense if it is zero. -/
theorem demand_natCast (n : Nat) (text : String) :
    demand (1 ≤ (n : Int)) (text ++ String.ofList (Text.signed n)) =
      if n = 0 then some (text ++ "0") else none := by
  unfold demand
  by_cases h : n = 0
  · subst h
    rfl
  · rw [if_neg h, if_pos (by omega)]

theorem IsHeldBy.map_message_fault? {t : Settings} (h : s.IsHeldBy t) :
    t.fault?.map SettingsFault.message = s.complaint? := by
  have hstep : ∀ (c : Prop) [Decidable c] (f : SettingsFault) (rest : Option SettingsFault),
      (if c then some f else rest).map SettingsFault.message =
        (if c then some f.message else none).or (rest.map SettingsFault.message) := by
    intro c _ f rest
    split_ifs <;> simp
  have hbusy : ∀ text : String, (s.busyTimeoutSecs.bind fun secs =>
      demand (1 ≤ secs) (text ++ String.ofList (Text.signed secs))) =
        if t.database.busyTimeoutSecs.toNat = 0 then some (text ++ "0") else none := by
    intro text
    have hheld := h.busyTimeoutSecs
    cases hsecs : s.busyTimeoutSecs with
    | none =>
      rw [hsecs, Option.getD_none] at hheld
      rw [Option.bind_none, if_neg (by omega)]
    | some secs =>
      rw [hsecs, Option.getD_some] at hheld
      rw [Option.bind_some, ← hheld, demand_natCast]
  rw [complaint?, ← h.port, demand_natCast, ← h.maxPoolSize, demand_natCast, hbusy, ← h.host,
    ← h.path]
  simp only [Settings.fault?, hstep, demand, ne_eq, ite_not, ← UInt16.toNat_inj,
    ← UInt32.toNat_inj, ← UInt64.toNat_inj, Option.map_none, Option.or_none]
  rfl

theorem IsHeldBy.complaint?_eq_none_iff {t : Settings} (h : s.IsHeldBy t) :
    s.complaint? = none ↔ s.IsValid := by
  have hport : s.port ≤ 65535 := by
    rw [← h.port]
    have := t.server.port.toNat_lt
    omega
  have hpool : s.maxPoolSize ≤ 4294967295 := by
    rw [← h.maxPoolSize]
    have := t.database.maxPoolSize.toNat_lt
    omega
  have hbusy : s.busyTimeoutSecs.getD 5 ≤ 18446744073709551615 := by
    rw [← h.busyTimeoutSecs]
    have := t.database.busyTimeoutSecs.toNat_lt
    omega
  simp only [complaint?, demand, ne_eq, ite_not, Option.or_eq_none_iff,
    ite_eq_left_iff, ite_eq_right_iff, reduceCtorEq, imp_false, not_not, Option.bind_eq_none_iff]
  constructor
  · rintro ⟨hport', hhost, hpath, hpool', hbusy'⟩
    refine ⟨⟨hport', hport⟩, hhost, hpath, ⟨hpool', hpool⟩, fun secs hsecs => ⟨hbusy' _ hsecs, ?_⟩⟩
    rwa [Option.mem_def.1 hsecs] at hbusy
  · rintro ⟨⟨hport', -⟩, hhost, hpath, ⟨hpool', -⟩, hbusy'⟩
    exact ⟨hport', hhost, hpath, hpool', fun secs hsecs => (hbusy' secs hsecs).1⟩

/-! ### Documents that hold settings -/

/-- Loading a text that holds settings comes down to decoding the tables that hold them. -/
theorem IsWrittenAs.exists_parse_eq {text : String} (h : s.IsWrittenAs text) :
    ∃ sections, s.AreSections sections ∧
      Settings.parse text = Settings.ofDocument (Toml.tableOf sections) := by
  obtain ⟨sections, hsections, hdocument⟩ := h
  refine ⟨sections, hsections, ?_⟩
  obtain ⟨server, database, hserver, hdatabase, hperm⟩ := hsections
  have hnames : (sections.map Prod.fst).Nodup := by
    rw [(hperm.map Prod.fst).nodup_iff]
    simp
  have hkeys : ∀ e ∈ sections, (e.2.map Prod.fst).Nodup := by
    intro e he
    obtain rfl | rfl : e = ("server", server) ∨ e = ("database", database) := by
      simpa using hperm.mem_iff.1 he
    · exact (hserver.map Prod.fst).nodup_iff.2 s.nodup_serverEntries
    · exact (hdatabase.map Prod.fst).nodup_iff.2 s.nodup_databaseEntries
  rw [Settings.parse, Toml.readDocument_of_isDocument hdocument,
    Toml.ofStatements_statementsOf hnames hkeys]

theorem IsWrittenAs.parse_eq_ok_iff {text : String} (h : s.IsWrittenAs text) {t : Settings} :
    Settings.parse text = .ok t ↔ s.IsHeldBy t ∧ s.IsValid := by
  obtain ⟨sections, hsections, hparse⟩ := h.exists_parse_eq
  rw [hparse, Settings.ofDocument_eq_ok_iff, ofTable_eq_ok_iff hsections]
  refine and_congr_right fun hheld => ?_
  rw [← hheld.complaint?_eq_none_iff, ← hheld.map_message_fault?, Option.map_eq_none_iff]

theorem IsWrittenAs.parse_eq_fault {text : String} (h : s.IsWrittenAs text) (hfits : s.Fits)
    (hinvalid : ¬ s.IsValid) :
    ∃ f, Settings.parse text = .error (.fault f) ∧ s.complaint? = some f.message := by
  obtain ⟨sections, hsections, hparse⟩ := h.exists_parse_eq
  obtain ⟨t, hheld⟩ := hfits.exists_isHeldBy
  have hcomplaint := hheld.map_message_fault?
  cases hfault : t.fault? with
  | none =>
    rw [hfault, Option.map_none] at hcomplaint
    exact absurd (hheld.complaint?_eq_none_iff.1 hcomplaint.symm) hinvalid
  | some f =>
    rw [hfault, Option.map_some] at hcomplaint
    refine ⟨f, ?_, hcomplaint.symm⟩
    rw [hparse, Settings.ofDocument_fault ((ofTable_eq_ok_iff hsections).2 hheld) hfault]

theorem isDocument_header (name : String) (hk : IsBareKey name) {sts : List Statement}
    {cs : List Char} (h : IsDocument sts cs) :
    IsDocument (.table ⟨[], name⟩ :: sts) (header name ++ cs) := by
  have hline := IsDocument.cons (.spaces isSpaces_nil)
    (.header hk isSpaces_nil isSpaces_nil) (.bare isSpaces_nil .feed) h
  simpa [header] using hline

theorem isDocument_entry (key : String) (hk : IsBareKey key) {v : Toml.Value} {w : List Char}
    (hv : WritesValue v w) {sts : List Statement} {cs : List Char}
    (h : IsDocument sts cs) :
    IsDocument (.pair ⟨[], key⟩ v :: sts) (entry key w ++ cs) := by
  have hline := IsDocument.cons (.spaces isSpaces_nil)
    (.pair hk isSpaces_one isSpaces_one hv) (.bare isSpaces_nil .feed) h
  simpa [entry] using hline

theorem writesValue_quote (text : String) :
    WritesValue (.string text) (Toml.quote text.toList) :=
  .string (Toml.spellsText_quote _)

theorem isDocument_busyTimeoutEntry (busy : Option Int) :
    IsDocument (busy.toList.map fun secs => .pair ⟨[], "busy_timeout_secs"⟩ (.integer secs))
      (busyTimeoutEntry busy) := by
  cases busy with
  | none => exact .nil (.spaces isSpaces_nil)
  | some secs =>
    have hend := IsDocument.nil (.spaces isSpaces_nil)
    simpa [busyTimeoutEntry] using isDocument_entry _ (by decide) (.integer secs) hend

/-- The writer writes the settings. -/
theorem isWrittenAs_render (s : RawSettings) : s.IsWrittenAs s.render := by
  refine ⟨[("server", s.serverEntries), ("database", s.databaseEntries)],
    ⟨_, _, .refl _, .refl _, .refl _⟩, ?_⟩
  have hdatabase := isDocument_header "database" (by decide) <|
    isDocument_entry "path" (by decide) (writesValue_quote s.path) <|
    isDocument_entry "max_pool_size" (by decide) (.integer s.maxPoolSize) <|
    isDocument_busyTimeoutEntry s.busyTimeoutSecs
  have hserver := isDocument_header "server" (by decide) <|
    isDocument_entry "port" (by decide) (.integer s.port) <|
    isDocument_entry "host" (by decide) (writesValue_quote s.host) hdatabase
  rw [render, String.toList_ofList]
  simpa [Toml.statementsOf, serverEntries, databaseEntries, Function.comp_def] using hserver

/-- Whatever the settings and whatever the layout, a document that holds them is loaded exactly
if they make sense, and then as they are. -/
theorem isLoadedFrom_written (s : RawSettings) :
    s.IsWrittenAs s.render ∧ ∀ text, s.IsWrittenAs text → s.IsLoadedFrom text := by
  refine ⟨isWrittenAs_render s, fun text h => ?_⟩
  constructor
  case exists_iff =>
    simp only [h.parse_eq_ok_iff, exists_and_right, and_iff_right_iff_imp]
    exact fun hvalid => hvalid.fits.exists_isHeldBy
  case isHeldBy => exact fun t ht => (h.parse_eq_ok_iff.1 ht).1
  case fault => exact h.parse_eq_fault

/-- Settings with two values that make no sense. -/
def untidy : RawSettings := ⟨80, "", "db", 0, none⟩

/-- The untidy settings, not as the writer writes them: tables and entries in another order, with
blanks, comments and an escape. -/
def untidyText : String :=
  "# store\r\n\n[ database ]\nmax_pool_size=0\t# none\npath = \"d\\x62\"\n\n" ++
    "[server]\n host = \"\"\nport = 80\n"

theorem isWrittenAs_untidyText : untidy.IsWrittenAs untidyText := by
  refine ⟨[("database", [("max_pool_size", .integer 0), ("path", .string "db")]),
    ("server", [("host", .string ""), ("port", .integer 80)])],
    ⟨_, _, .swap _ _ _, .swap _ _ _, .swap _ _ _⟩, ?_⟩
  have hfeed : IsLineRest ['\n'] := .bare isSpaces_nil .feed
  have htab : Toml.IsSpaces ['\t'] := by simp [Toml.IsSpaces, Toml.isSpace]
  have hplain : ∀ text ∈ [" none", " store"], ∀ c ∈ text.toList, Toml.isPlain c = true := by
    simp [Toml.isPlain]
  have hremark := IsLineRest.comment htab (hplain " none" (by simp)) .feed
  have htitle := IsLineRest.comment isSpaces_nil (hplain " store" (by simp)) .returnFeed
  have hnone : IsGap [] := .spaces isSpaces_nil
  have hname : Toml.SpellsText ['d', 'b'] ['d', '\\', 'x', '6', '2'] :=
    .cons (.plain (by decide) (by decide) (by decide)) <|
      .cons (@Toml.Spells.code 'b' 'x' ['6', '2'] rfl (by simp [Text.hexDigit?]) (by decide)) .nil
  have hport := IsDocument.cons hnone
    (.pair (by decide : IsBareKey "port") isSpaces_one isSpaces_one (.integer 80))
    hfeed (.nil hnone)
  have hhost := IsDocument.cons (.spaces isSpaces_one)
    (.pair (by decide : IsBareKey "host") isSpaces_one isSpaces_one
      (.string (s := "") .nil)) hfeed hport
  have hserver := IsDocument.cons (.line hfeed hnone)
    (.header (by decide : IsBareKey "server") isSpaces_nil isSpaces_nil)
    hfeed hhost
  have hpath := IsDocument.cons hnone
    (.pair (by decide : IsBareKey "path") isSpaces_one isSpaces_one
      (.string (s := "db") hname)) hfeed hserver
  have hpool := IsDocument.cons hnone
    (.pair (by decide : IsBareKey "max_pool_size") isSpaces_nil isSpaces_nil
      (.integer 0)) hremark hpath
  have hdatabase := IsDocument.cons
    (.line htitle (.line hfeed hnone))
    (.header (by decide : IsBareKey "database") isSpaces_one isSpaces_one)
    hfeed hpool
  exact hdatabase

/-- Settings with the greatest integers that are possible, and a host that needs escapes. -/
def greatest : RawSettings :=
  ⟨65535, "\"é\\\x00\n", "data/a b.db", 4294967295, some 18446744073709551615⟩

theorem isLoadedFrom_untidyText :
    untidy.IsWrittenAs untidyText ∧ untidy.IsLoadedFrom untidyText ∧
      Settings.parse untidyText = .error (.fault .emptyHost) ∧
      greatest.IsLoadedFrom greatest.render ∧ ∃ t, Settings.parse greatest.render = .ok t := by
  have hwritten := isWrittenAs_untidyText
  have hloaded := (isLoadedFrom_written untidy).2 untidyText hwritten
  have hfault : Settings.parse untidyText = .error (.fault .emptyHost) := by
    have hfits : untidy.Fits := ⟨by decide, by decide, by simp [untidy]⟩
    have hinvalid : ¬ untidy.IsValid := fun h => h.host rfl
    obtain ⟨f, hparse, hcomplaint⟩ := hloaded.fault hfits hinvalid
    rw [hparse]
    cases f with
    | emptyHost => rfl
    | zeroPort | emptyPath | zeroPoolSize | zeroBusyTimeout => exact absurd hcomplaint (by decide)
  have hgreatest := (isLoadedFrom_written greatest).2 _ (isWrittenAs_render greatest)
  have hvalid : greatest.IsValid :=
    ⟨by decide, by decide, by decide, by decide, by simp [greatest]⟩
  exact ⟨hwritten, hloaded, hfault, hgreatest, hgreatest.exists_iff.2 hvalid⟩

end RawSettings

end CrashReports

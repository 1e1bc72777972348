import CrashReports.Crash.Json
import CrashReports.Proofs.Calendar.RoundTrip
import CrashReports.Proofs.Crash.Transcript

/-!
# What the JSON form of crash data tells apart

Lists of daily counts with the same JSON form are the same, and lists of events with the same
JSON form have the same transcripts, though the times of two crashes may be written alike.  What
a client of the service reads is therefore enough to build the parts of a report.
-/

namespace CrashReports

open Function (Injective)

theorem Json.ofList_injective {α : Type} {f : α → Json} (hf : Injective f) :
    Injective (Json.ofList f) := by
  intro xs ys h
  exact List.map_injective_iff.2 hf (Json.array.inj h)

theorem Json.ofOption_inj {α : Type} {f : α → String} (hf : Injective f) {x y : Option α}
    (h : Json.ofOption (fun a => .string (f a)) x = Json.ofOption (fun a => .string (f a)) y) :
    x = y := by
  cases x with
  | none =>
    cases y with
    | none => rfl
    | some b => cases h
  | some a =>
    cases y with
    | none => cases h
    | some b => rw [hf (Json.string.inj h)]

theorem Event.ofEvent_eq_of_toJson {a b : Event} (h : a.toJson = b.toJson) :
    Transcript.ofEvent a = Transcript.ofEvent b := by
  simp only [Event.toJson, Json.object.injEq, List.cons.injEq, Prod.mk.injEq, Json.string.injEq,
    true_and, and_true] at h
  obtain ⟨hid, hname, -, hlog⟩ := h
  exact Transcript.ext hid hname hlog

theorem Transcript.consolidate_eq_of_toJson {xs ys : List Event}
    (h : Json.ofList Event.toJson xs = Json.ofList Event.toJson ys) :
    consolidate xs = consolidate ys := by
  apply consolidate_eq_of_map_ofEvent
  have hmap : xs.map Event.toJson = ys.map Event.toJson := Json.array.inj h
  induction xs generalizing ys with
  | nil =>
    obtain rfl := List.map_eq_nil_iff.1 hmap.symm
    rfl
  | cons x xs ih =>
    obtain ⟨y, zs, rfl, hy, hzs⟩ := List.map_eq_cons_iff.1 hmap.symm
    rw [List.map_cons, List.map_cons, Event.ofEvent_eq_of_toJson hy,
      ih (congrArg Json.array hzs.symm) hzs.symm]

theorem CountRecord.toJson_injective : Injective CountRecord.toJson := by
  intro a b h
  simp only [CountRecord.toJson, Json.object.injEq, List.cons.injEq, Prod.mk.injEq,
    Json.string.injEq, Json.integer.injEq, true_and, and_true] at h
  obtain ⟨hid, hname, hday, hcount⟩ := h
  exact CountRecord.ext hid hname (Json.ofOption_inj Day.toString_injective hday)
    (UInt32.toNat_inj.1 (Int.ofNat.inj hcount))

end CrashReports

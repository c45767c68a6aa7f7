import BinaryAtlas.Config
import BinaryAtlas.Proofs.Forms
import BinaryAtlas.Proofs.Json.Reading
import Mathlib.Data.List.Nodup

namespace BinaryAtlas

namespace Json

mutual

def prune (gone : List String → Bool) : Json → Json
  | .obj fields => .obj (pruneFields gone fields)
  | j => j

def pruneFields (gone : List String → Bool) : List (String × Json) → List (String × Json)
  | [] => []
  | (k, j) :: rest =>
    if gone [k] then pruneFields gone rest
    else (k, prune (fun path => gone (k :: path)) j) :: pruneFields gone rest

end

mutual

theorem plain_prune :
    (j : Json) → (gone : List String → Bool) → j.plain = true → (j.prune gone).plain = true
  | .null, _, _ | .bool _, _, _ | .natural _, _, _ | .str _, _, _ => rfl
  | .arr items, _, h => by simpa [prune] using h
  | .obj fields, gone, h => by
    rw [prune, plain]
    exact plain_pruneFields fields gone (by simpa [plain] using h)

theorem plain_pruneFields :
    (fields : List (String × Json)) → (gone : List String → Bool) → plainFields fields = true →
      plainFields (pruneFields gone fields) = true
  | [], _, _ => by simp [pruneFields, plainFields]
  | (k, j) :: rest, gone, h => by
    rw [plainFields, Bool.and_eq_true] at h
    have hrest := plain_pruneFields rest gone h.2
    rw [pruneFields]
    split
    · exact hrest
    · rw [plainFields, plain_prune j _ h.1, hrest]
      rfl

end

theorem keys_pruneFields (gone : List String → Bool) (fields : List (String × Json)) :
    ((pruneFields gone fields).map Prod.fst).Sublist (fields.map Prod.fst) := by
  induction fields with
  | nil => simp [pruneFields]
  | cons field rest ih =>
    obtain ⟨k, j⟩ := field
    rw [pruneFields]
    split
    · exact ih.trans (List.sublist_cons_self _ _)
    · exact ih.cons_cons k

theorem lookup_pruneFields (gone : List String → Bool) (fields : List (String × Json))
    (n : String) :
    (pruneFields gone fields).lookup n = if gone [n] then none
      else (fields.lookup n).map (prune fun path => gone (n :: path)) := by
  induction fields with
  | nil => simp [pruneFields]
  | cons field rest ih =>
    obtain ⟨k, j⟩ := field
    rw [pruneFields]
    by_cases hk : n = k
    · subst hk
      split
      case isTrue hgone => rw [ih, if_pos hgone]
      case isFalse hgone => simp
    · have hne : (n == k) = false := by simpa using hk
      split
      · rw [ih, List.lookup_cons, hne]
      · rw [List.lookup_cons, List.lookup_cons, hne]
        exact ih

theorem slots?_prune (gone : List String → Bool) {fields : List (String × Json)}
    (h : (fields.map Prod.fst).Nodup) (names : List String) :
    ((Json.obj fields).prune gone).slots? names = some (names.map fun n => if gone [n] then none
      else (fields.lookup n).map (prune fun path => gone (n :: path))) := by
  have hnodup := h.sublist (keys_pruneFields gone fields)
  have honce : (names.all fun n =>
      ((pruneFields gone fields).filter (·.1 == n)).length ≤ 1) = true := by
    rw [List.all_eq_true]
    intro n _
    have hcount := List.nodup_iff_count_le_one.mp hnodup n
    rw [List.count, List.countP_map, List.countP_eq_length_filter] at hcount
    simpa [Function.comp_def] using hcount
  rw [prune, slots?, if_pos honce]
  simp only [lookup_pruneFields]

theorem orDefault_ite {α : Type} (read : Json → Option α) (fallback : α) (gone : Bool) (j : Json) :
    orDefault read fallback (if gone then none else some j)
      = if gone then some fallback else read j := by
  cases gone <;> rfl

mutual

theorem prune_nothing : (j : Json) → j.prune (fun _ => false) = j
  | .null | .bool _ | .natural _ | .number _ | .str _ | .arr _ | .garbled => rfl
  | .obj fields => by rw [prune, pruneFields_nothing fields]

theorem pruneFields_nothing :
    (fields : List (String × Json)) → pruneFields (fun _ => false) fields = fields
  | [] => by rw [pruneFields]
  | (k, j) :: rest => by
    rw [pruneFields, prune_nothing j, pruneFields_nothing rest]
    rfl

end

end Json

structure StoreConfig.Fits (c : StoreConfig) : Prop where
  maxFileSize : c.maxFileSize < Word.limit
  maxMemorySize : c.maxMemorySize < Word.limit

structure AnalysisConfig.Fits (c : AnalysisConfig) : Prop where
  maxSections : c.maxSections < Word.limit
  pointerSize : c.pointerSize < Word.limit

structure Config.Fits (c : Config) : Prop where
  store : c.store.Fits
  analysis : c.analysis.Fits

def StoreConfig.pruned (gone : List String → Bool) (c : StoreConfig) : StoreConfig where
  maxFileSize := if gone ["max_file_size"] then ({} : StoreConfig).maxFileSize else c.maxFileSize
  growableMemory :=
    if gone ["growable_memory"] then ({} : StoreConfig).growableMemory else c.growableMemory
  maxMemorySize :=
    if gone ["max_memory_size"] then ({} : StoreConfig).maxMemorySize else c.maxMemorySize

def AnalysisConfig.pruned (gone : List String → Bool) (c : AnalysisConfig) : AnalysisConfig where
  maxSections := if gone ["max_sections"] then ({} : AnalysisConfig).maxSections else c.maxSections
  clampRawData :=
    if gone ["allow_raw_data_past_eof"] then ({} : AnalysisConfig).clampRawData else c.clampRawData
  pointerSize := if gone ["pointer_size"] then ({} : AnalysisConfig).pointerSize else c.pointerSize

def Config.pruned (gone : List String → Bool) (c : Config) : Config where
  store := if gone ["io"] then {} else c.store.pruned fun path => gone ("io" :: path)
  analysis :=
    if gone ["analysis"] then {} else c.analysis.pruned fun path => gone ("analysis" :: path)

theorem StoreConfig.ofJson?_prune {c : StoreConfig} (h : c.Fits) (gone : List String → Bool) :
    StoreConfig.ofJson? (c.toJson.prune gone) = some (c.pruned gone) := by
  rw [StoreConfig.ofJson?, StoreConfig.toJson, Json.slots?_prune gone (by simp)]
  simp [List.lookup_cons, Json.orDefault_ite, Json.prune, Json.word?_natural h.maxFileSize,
    Json.word?_natural h.maxMemorySize, Json.bool?, ← apply_ite some, StoreConfig.pruned]

theorem AnalysisConfig.ofJson?_prune {c : AnalysisConfig} (h : c.Fits)
    (gone : List String → Bool) :
    AnalysisConfig.ofJson? (c.toJson.prune gone) = some (c.pruned gone) := by
  rw [AnalysisConfig.ofJson?, AnalysisConfig.toJson, Json.slots?_prune gone (by simp)]
  simp [List.lookup_cons, Json.orDefault_ite, Json.prune, Json.word?_natural h.maxSections,
    Json.word?_natural h.pointerSize, Json.bool?, ← apply_ite some, AnalysisConfig.pruned]

namespace Config

theorem ofJson?_prune {c : Config} (h : c.Fits) (gone : List String → Bool) :
    ofJson? (c.toJson.prune gone) = some (c.pruned gone) := by
  rw [ofJson?, toJson, Json.slots?_prune gone (by simp)]
  simp [List.lookup_cons, Json.orDefault_ite, StoreConfig.ofJson?_prune h.store,
    AnalysisConfig.ofJson?_prune h.analysis, ← apply_ite some, pruned]

theorem plain_toJson (c : Config) : c.toJson.plain = true := rfl

theorem pruned_nothing (c : Config) : c.pruned (fun _ => false) = c := rfl

theorem text_read_back {c : Config} (h : c.Fits) (gone : List String → Bool) :
    (∀ t : String, (c.toJson.prune gone).Spells t.toList → ofText? t = some (c.pruned gone)) ∧
    ofText? (c.toJson.prune gone).pretty = some (c.pruned gone) ∧
    ofText? c.toText = some c := by
  have hread : ∀ gone t, (c.toJson.prune gone).Spells t.toList →
      ofText? t = some (c.pruned gone) := by
    intro gone t ht
    rw [ofText?, Json.ofText?_of_spells ht]
    exact ofJson?_prune h gone
  have hpretty : ∀ gone, ofText? (c.toJson.prune gone).pretty = some (c.pruned gone) := fun gone =>
    hread gone _ (Json.spells_pretty (Json.plain_prune _ gone c.plain_toJson))
  have hwhole := hpretty fun _ => false
  rw [Json.prune_nothing, pruned_nothing] at hwhole
  exact ⟨hread gone, hpretty gone, hwhole⟩

def extreme : Config where
  store := { maxFileSize := Word.top, growableMemory := false, maxMemorySize := 0 }
  analysis := { maxSections := Word.top, clampRawData := true, pointerSize := 0 }

def partialText : String :=
  "\x7b\n  \"io\": \x7b\n    \"max_file_size\": 18446744073709551615,\n" ++
  "    \"max_memory_size\": 0\n  \x7d\n\x7d"

theorem extreme_read_back :
    ofText? partialText =
      some { store := { maxFileSize := Word.top, growableMemory := true, maxMemorySize := 0 }
             analysis := {} } ∧
    ofText? extreme.toText = some extreme := by
  have hfits : extreme.Fits := ⟨⟨by decide, by decide⟩, ⟨by decide, by decide⟩⟩
  have h := text_read_back hfits (· ∈ [["analysis"], ["io", "growable_memory"]])
  have htext : (extreme.toJson.prune (· ∈ [["analysis"], ["io", "growable_memory"]])).pretty
      = partialText := by decide +kernel
  rw [htext] at h
  exact ⟨h.2.1, h.2.2⟩

end Config

end BinaryAtlas

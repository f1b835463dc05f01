import SurfaceExchange.Filed.Cabinet
import SurfaceExchange.Table.Lemmas
import Mathlib.Data.List.Basic

/-!
# What is in the folders

A cabinet is read in three ways: entry by entry through the folder that a key
names, folder by folder, and as the one table that its entries make up
(`gathered`). The first and the last always agree (`find?_gathered`). They
agree with the second if the cabinet is `Tidy`, that is if every entry is in
the folder that its key names.
-/

namespace SurfaceExchange.Cabinet

open NamesRegistry (registry lt_of_registry_lt)

variable {ρ κ α : Type} [KeyOrder ρ] [KeyOrder κ] [DecidableEq ρ]

/-- The registries without their folders. -/
def registries (t : Cabinet ρ κ α) : Table ρ Registry := t.mapValues (fun _ g => g.toRegistry)

theorem find?_registries (t : Cabinet ρ κ α) (p : ρ) :
    t.registries.find? p = (t.find? p).map Folder.toRegistry :=
  Table.find?_mapValues _ _ _

theorem registries_inFolder (t : Cabinet ρ κ α) (p : ρ) (f : Table κ α → Table κ α) :
    (t.inFolder p f).registries = t.registries := by
  apply Table.ext_find?
  intro q
  rw [find?_registries, find?_registries, inFolder, Table.find?_modify]
  split
  · rw [Option.map_map]; rfl
  · rfl

theorem registries_put (t : Cabinet ρ κ α) (p : ρ) (k : κ) (a : α) :
    (t.put p k a).registries = t.registries :=
  registries_inFolder _ _ _

theorem registries_erase (t : Cabinet ρ κ α) (p : ρ) :
    registries (t.erase p) = t.registries.erase p := by
  apply Table.ext_find?
  intro q
  rw [find?_registries, Table.find?_erase, Table.find?_erase, find?_registries]
  split <;> rfl

theorem registries_insert (t : Cabinet ρ κ α) (p : ρ) (g : Folder κ α) :
    registries (t.insert p g) = t.registries.insert p g.toRegistry := by
  apply Table.ext_find?
  intro q
  rw [find?_registries, Table.find?_insert, Table.find?_insert, find?_registries]
  split <;> rfl

variable [DecidableEq κ] [NamesRegistry κ ρ]

theorem registries_edit (t : Cabinet ρ κ α) (k : κ) (f : α → α) :
    (t.edit k f).registries = t.registries :=
  registries_inFolder _ _ _

theorem registries_drop (t : Cabinet ρ κ α) (k : κ) : (t.drop k).registries = t.registries :=
  registries_inFolder _ _ _

/-! ## All entries in one table -/

/-- The entries of all folders in one table. An entry in a folder that its key does not name is
left out, for its key would stand out of order. -/
def gathered (t : Cabinet ρ κ α) : Table κ α where
  toList := t.toList.flatMap (fun f =>
    f.2.entries.toList.filter (fun e => decide (registry e.1 = f.1)))
  ascending := by
    refine List.pairwise_flatMap.mpr
      ⟨fun f _ => f.2.entries.ascending.sublist List.filter_sublist, ?_⟩
    refine t.ascending.imp fun {f f'} hlt e he e' he' => lt_of_registry_lt _ _ ?_
    rw [of_decide_eq_true (List.mem_filter.mp he).2, of_decide_eq_true (List.mem_filter.mp he').2]
    exact hlt

/-- A key is found in the folder that it names, or nowhere. -/
theorem find?_gathered (t : Cabinet ρ κ α) (k : κ) : t.gathered.find? k = t.lookUp? k := by
  apply Option.ext
  intro a
  rw [← Table.mem_toList_iff]
  simp only [gathered, List.mem_flatMap, List.mem_filter, decide_eq_true_eq, lookUp?,
    Option.bind_eq_some_iff]
  constructor
  · rintro ⟨⟨p, g⟩, hg, he, rfl⟩
    exact ⟨g, (t.mem_toList_iff _ _).mp hg, (g.entries.mem_toList_iff _ _).mp he⟩
  · rintro ⟨g, hg, he⟩
    exact ⟨(registry k, g), (t.mem_toList_iff _ _).mpr hg, (g.entries.mem_toList_iff _ _).mpr he,
      rfl⟩

theorem lookUp?_inFolder (t : Cabinet ρ κ α) (p : ρ) (f : Table κ α → Table κ α) (k : κ) :
    (t.inFolder p f).lookUp? k =
      if registry k = p then (t.find? p).bind (fun g => (f g.entries).find? k)
      else t.lookUp? k := by
  simp only [lookUp?, inFolder, Table.find?_modify]
  by_cases hk : registry k = p
  · simp only [hk, ↓reduceIte, Option.bind_map]
    rfl
  · simp only [hk, ↓reduceIte]

/-- Changing an entry in its folder is changing it in the table. -/
theorem gathered_edit (t : Cabinet ρ κ α) (k : κ) (f : α → α) :
    (t.edit k f).gathered = t.gathered.modify k f := by
  apply Table.ext_find?
  intro l
  rw [find?_gathered, edit, lookUp?_inFolder, Table.find?_modify, find?_gathered, lookUp?]
  by_cases hl : registry l = registry k
  · simp only [hl, ↓reduceIte, Table.find?_modify]
    cases t.find? (registry k) <;> split <;> rfl
  · have hne : l ≠ k := fun heq => hl (heq ▸ rfl)
    simp only [hl, hne, ↓reduceIte]

/-- Taking an entry out of its folder is taking it out of the table. -/
theorem gathered_drop (t : Cabinet ρ κ α) (k : κ) :
    (t.drop k).gathered = t.gathered.erase k := by
  apply Table.ext_find?
  intro l
  rw [find?_gathered, drop, lookUp?_inFolder, Table.find?_erase, find?_gathered, lookUp?]
  by_cases hl : registry l = registry k
  · simp only [hl, ↓reduceIte, Table.find?_erase]
    cases t.find? (registry k) <;> split <;> rfl
  · have hne : l ≠ k := fun heq => hl (heq ▸ rfl)
    simp only [hl, hne, ↓reduceIte]

/-- Putting an entry into the folder that its key names is filing it in the table, provided that
there is the folder. -/
theorem gathered_put {t : Cabinet ρ κ α} {p : ρ} {k : κ} (hk : registry k = p)
    (hp : (t.find? p).isSome) (a : α) : (t.put p k a).gathered = t.gathered.insert k a := by
  obtain ⟨g, hg⟩ := Option.isSome_iff_exists.mp hp
  apply Table.ext_find?
  intro l
  rw [find?_gathered, put, lookUp?_inFolder, Table.find?_insert, find?_gathered, lookUp?]
  by_cases hl : registry l = p
  · simp only [hl, hg, ↓reduceIte, Option.bind_some, Table.find?_insert]
  · have hne : k ≠ l := fun heq => hl (heq ▸ hk)
    simp only [hl, hne, ↓reduceIte]

/-- A registry that is taken away takes its folder along. -/
theorem gathered_erase (t : Cabinet ρ κ α) (p : ρ) :
    gathered (t.erase p) = t.gathered.filter (fun k _ => decide (registry k ≠ p)) := by
  apply Table.ext_find?
  intro k
  rw [find?_gathered, Table.find?_filter_key, find?_gathered, lookUp?, lookUp?, Table.find?_erase]
  by_cases hk : registry k = p <;> simp [hk]

/-- A registry that is new comes with an empty folder. -/
theorem gathered_insert {t : Cabinet ρ κ α} {p : ρ} (hp : t.find? p = none) (g : Registry) :
    gathered (t.insert p { toRegistry := g }) = t.gathered := by
  apply Table.ext_find?
  intro k
  rw [find?_gathered, find?_gathered, lookUp?, lookUp?, Table.find?_insert]
  by_cases hk : p = registry k
  · subst hk
    simp [hp]
  · simp [hk]

/-! ## Tidy cabinets -/

/-- Every entry is in the folder that its key names. -/
def Tidy (t : Cabinet ρ κ α) : Prop :=
  ∀ p g k a, t.find? p = some g → g.entries.find? k = some a → registry k = p

theorem tidy_empty : Tidy (.empty : Cabinet ρ κ α) := nofun

namespace Tidy

variable {t : Cabinet ρ κ α} (h : t.Tidy)

include h

/-- A cabinet stays tidy if what is new in a folder belongs there. -/
theorem inFolder {p : ρ} {f : Table κ α → Table κ α}
    (hf : ∀ u k a, (f u).find? k = some a → registry k = p ∨ ∃ b, u.find? k = some b) :
    (t.inFolder p f).Tidy := by
  intro q g k a hg hk
  rw [Cabinet.inFolder, Table.find?_modify] at hg
  split at hg
  · next hq =>
    obtain ⟨g', hg', rfl⟩ := Option.map_eq_some_iff.mp hg
    rcases hf _ k a hk with hp | ⟨b, hb⟩
    · rw [hp, hq]
    · exact h _ _ _ _ hg' hb
  · exact h _ _ _ _ hg hk

theorem put {p : ρ} {k : κ} (hk : registry k = p) (a : α) : (t.put p k a).Tidy :=
  h.inFolder fun u l b hf => by
    rcases Table.of_find?_insert hf with ⟨rfl, -⟩ | hf
    · exact Or.inl hk
    · exact Or.inr ⟨b, hf⟩

theorem edit (k : κ) (f : α → α) : (t.edit k f).Tidy :=
  h.inFolder fun u l a hf => by
    rw [Table.find?_modify] at hf
    split at hf
    · next heq => exact Or.inl (congrArg registry heq)
    · exact Or.inr ⟨a, hf⟩

theorem drop (k : κ) : (t.drop k).Tidy :=
  h.inFolder fun _ _ _ hf => Or.inr ⟨_, Table.of_find?_erase hf⟩

theorem erase (p : ρ) : Tidy (t.erase p) := fun q g k a hg hk =>
  h q g k a (Table.of_find?_erase hg) hk

theorem insert (p : ρ) (g : Registry) : Tidy (t.insert p { toRegistry := g }) := by
  intro q g' k a hg hk
  rcases Table.of_find?_insert hg with ⟨-, rfl⟩ | hg
  · cases hk
  · exact h _ _ _ _ hg hk

/-- A folder has the entries of the table that name its registry. -/
theorem entries_eq {p : ρ} {g : Folder κ α} (hg : t.find? p = some g) :
    g.entries = t.gathered.filter (fun k _ => decide (registry k = p)) := by
  apply Table.ext_find?
  intro k
  rw [Table.find?_filter_key, find?_gathered, lookUp?]
  by_cases hk : registry k = p
  · simp [hk, hg]
  · have hnone : g.entries.find? k = none :=
      Option.eq_none_iff_forall_ne_some.mpr fun a ha => hk (h p g k a hg ha)
    simp [hk, hnone]

/-- Walking the folders is walking the table. -/
theorem all_eq : t.all = t.gathered.toList := by
  rw [all, Table.values, List.flatMap_map]
  refine List.flatMap_congr fun f hf => ?_
  refine (List.filter_eq_self.mpr fun e he => decide_eq_true ?_).symm
  exact h _ _ _ _ ((t.mem_toList_iff f.1 f.2).mp hf) ((f.2.entries.mem_toList_iff e.1 e.2).mp he)

end Tidy

end SurfaceExchange.Cabinet

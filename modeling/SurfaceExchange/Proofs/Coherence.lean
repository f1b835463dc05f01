import SurfaceExchange.Exchange.Service
import SurfaceExchange.Proofs.Retirement

/-!
# What keeps an exchange coherent

Objects that go, links that end and objects that are made: each leaves a
coherent exchange coherent. Whole operations are put together from these.
-/

namespace SurfaceExchange.Exchange

variable {x : Exchange}

/-- The watchers that go with exports and with the links of imports. -/
def Gone (es : List ExportId) (is : List ImportId) : Watcher → Prop
  | .exportUnmap e => e ∈ es
  | .childUnmap i _ => i ∈ is
  | .childSetParent i _ => i ∈ is

namespace Coherent

/-! ## Exports that go -/

/-- The importers of exports are the imports that have one of them as their source. -/
theorem mem_importersOf_iff (h : x.Coherent) {ps : List (ExportId × Export)}
    (hps : ∀ p ∈ ps, x.exports.find? p.1 = some p.2) {i : ImportId} {r : Import}
    (hi : x.imports.find? i = some r) :
    i ∈ importersOf ps ↔ ∃ e ∈ ps.map Prod.fst, r.source = some e := by
  rw [importersOf, List.mem_flatMap]
  constructor
  · rintro ⟨p, hp, hm⟩
    exact ⟨p.1, List.mem_map_of_mem hp, h.links.source_of_listed hi (hps p hp) hm⟩
  · rintro ⟨e, he, hs⟩
    obtain ⟨p, hp, rfl⟩ := List.mem_map.mp he
    obtain ⟨s, hf, hm⟩ := h.links.listed hi hs
    rw [hps p hp] at hf
    cases hf
    exact ⟨p, hp, hm⟩

theorem find?_exports_dropExports (ps : List (ExportId × Export)) (e : ExportId) :
    (x.dropExports ps).exports.find? e =
      if e ∈ ps.map Prod.fst then none else x.exports.find? e := by
  rw [dropExports, Table.find?_filter]
  cases x.exports.find? e <;> by_cases he : e ∈ ps.map Prod.fst <;> simp [he]

/-- Dropping what an exporter has made leaves the exports of the others. -/
theorem find?_exports_dropOwn (p : ExporterId) (e : ExportId) :
    (x.dropExports (x.ownExports p)).exports.find? e =
      if e.exporter = p then none else x.exports.find? e := by
  rw [Exchange.dropExports, ← filter_ownExports, Table.find?_filter]
  cases x.exports.find? e <;> by_cases he : e.exporter = p <;> simp [he, Option.filter_some]

theorem find?_imports_dropExports (ps : List (ExportId × Export)) (i : ImportId) :
    (x.dropExports ps).imports.find? i =
      (x.imports.find? i).map (fun r => if i ∈ importersOf ps then r.orphan else r) :=
  find?_imports_sever _ (ps.flatMap x.tokensOf) i

/-- An import of what is left is an import from before that has kept its source, or one that has
lost it. -/
theorem import_of_dropExports {ps : List (ExportId × Export)} {i : ImportId} {r' : Import}
    (hi : (x.dropExports ps).imports.find? i = some r') :
    ∃ r, x.imports.find? i = some r ∧
      ((i ∈ importersOf ps ∧ r' = r.orphan) ∨ (i ∉ importersOf ps ∧ r' = r)) := by
  rw [find?_imports_dropExports, Option.map_eq_some_iff] at hi
  obtain ⟨r, hf, hr⟩ := hi
  refine ⟨r, hf, ?_⟩
  split at hr
  · next hm => exact Or.inl ⟨hm, hr.symm⟩
  · next hm => exact Or.inr ⟨hm, hr.symm⟩

theorem dropExports_links (h : x.Coherent) {ps : List (ExportId × Export)}
    (hps : ∀ p ∈ ps, x.exports.find? p.1 = some p.2) :
    Links (x.dropExports ps).exports (x.dropExports ps).imports := by
  have hexport : ∀ {e s}, (x.dropExports ps).exports.find? e = some s →
      e ∉ ps.map Prod.fst ∧ x.exports.find? e = some s := by
    intro e s he
    rw [find?_exports_dropExports] at he
    split at he
    · cases he
    · next hn => exact ⟨hn, he⟩
  have hlink : ∀ {i r' l}, (x.dropExports ps).imports.find? i = some r' → l ∈ r'.children →
      ∃ r, x.imports.find? i = some r ∧ l ∈ r.children := by
    intro i r' l hi hl
    obtain ⟨r, hf, ⟨-, rfl⟩ | ⟨-, rfl⟩⟩ := import_of_dropExports hi
    · cases hl
    · exact ⟨_, hf, hl⟩
  refine ⟨?_, ?_, fun he => h.links.ordered (hexport he).2, ?_,
    fun he => h.links.exportPlaced (hexport he).2, ?_, ?_, ?_⟩
  · intro i r' e hi hs
    obtain ⟨r, hf, ⟨-, rfl⟩ | ⟨hn, rfl⟩⟩ := import_of_dropExports hi
    · cases hs
    · obtain ⟨s, he, hm⟩ := h.links.listed hf hs
      have hne : e ∉ ps.map Prod.fst := fun hm' =>
        hn ((h.mem_importersOf_iff hps hf).mpr ⟨e, hm', hs⟩)
      exact ⟨s, by rw [find?_exports_dropExports, if_neg hne, he], hm⟩
  · intro e s i he hm
    obtain ⟨hne, he⟩ := hexport he
    obtain ⟨r, hf, hs⟩ := h.links.resolved he hm
    have hn : i ∉ importersOf ps := by
      intro hi
      obtain ⟨e', he', hs'⟩ := (h.mem_importersOf_iff hps hf).mp hi
      rw [hs] at hs'
      cases hs'
      exact hne he'
    exact ⟨r, by rw [find?_imports_dropExports, hf]; simp [hn], hs⟩
  · intro i r' hi hs
    obtain ⟨r, hf, ⟨-, rfl⟩ | ⟨-, rfl⟩⟩ := import_of_dropExports hi
    · rfl
    · exact h.links.childless hf hs
  · intro i r' l hi hl
    obtain ⟨r, hf, hl⟩ := hlink hi hl
    exact h.links.linkPlaced hf hl
  · intro i r' hi
    obtain ⟨r, hf, ⟨-, rfl⟩ | ⟨-, rfl⟩⟩ := import_of_dropExports hi
    · exact List.nodup_nil
    · exact h.links.surfaces_nodup hf
  · intro i j r s l m hi hj hl hm hlm
    obtain ⟨r, hf, hl⟩ := hlink hi hl
    obtain ⟨s, hg, hm⟩ := hlink hj hm
    exact h.links.oneParent hf hg hl hm hlm

/-- Exports take their own tokens with them and those of the links made through them. -/
theorem mem_tokensOf_iff {ps : List (ExportId × Export)}
    (hps : ∀ p ∈ ps, x.exports.find? p.1 = some p.2) (t : Subscription) :
    t ∈ ps.flatMap x.tokensOf ↔ ∃ w, Holds x.exports x.imports t w ∧
      Gone (ps.map Prod.fst) (importersOf ps) w := by
  simp only [List.mem_flatMap, tokensOf, List.mem_append, mem_linksOf_iff, ChildLink.tokens,
    List.mem_cons, List.not_mem_nil, or_false]
  constructor
  · rintro ⟨p, hp, ⟨l, ⟨i, hi, r, hf, hl⟩, rfl | rfl⟩ | rfl⟩
    · exact ⟨_, .childUnmap hf hl, List.mem_flatMap.mpr ⟨p, hp, hi⟩⟩
    · exact ⟨_, .childSetParent hf hl, List.mem_flatMap.mpr ⟨p, hp, hi⟩⟩
    · exact ⟨_, .exportUnmap (hps p hp), List.mem_map_of_mem hp⟩
  · rintro ⟨w, hw, hg⟩
    cases hw with
    | exportUnmap hf =>
      obtain ⟨p, hp, rfl⟩ := List.mem_map.mp hg
      rw [hps p hp] at hf
      cases hf
      exact ⟨p, hp, Or.inr rfl⟩
    | childUnmap hf hl =>
      obtain ⟨p, hp, hi⟩ := List.mem_flatMap.mp hg
      exact ⟨p, hp, Or.inl ⟨_, ⟨_, hi, _, hf, hl⟩, Or.inl rfl⟩⟩
    | childSetParent hf hl =>
      obtain ⟨p, hp, hi⟩ := List.mem_flatMap.mp hg
      exact ⟨p, hp, Or.inl ⟨_, ⟨_, hi, _, hf, hl⟩, Or.inr rfl⟩⟩

theorem holds_dropExports_iff (ps : List (ExportId × Export)) (t : Subscription) (w : Watcher) :
    Holds (x.dropExports ps).exports (x.dropExports ps).imports t w ↔
      Holds x.exports x.imports t w ∧ ¬ Gone (ps.map Prod.fst) (importersOf ps) w := by
  have hkeep : ∀ {i r}, i ∉ importersOf ps → x.imports.find? i = some r →
      (x.dropExports ps).imports.find? i = some r := by
    intro i r hn hf
    rw [find?_imports_dropExports, hf]
    simp [hn]
  constructor
  · intro hw
    cases hw with
    | exportUnmap he =>
      rw [find?_exports_dropExports] at he
      split at he
      · cases he
      · next hn => exact ⟨.exportUnmap he, hn⟩
    | childUnmap hi hl =>
      obtain ⟨r, hf, ⟨-, rfl⟩ | ⟨hn, rfl⟩⟩ := import_of_dropExports hi
      · cases hl
      · exact ⟨.childUnmap hf hl, hn⟩
    | childSetParent hi hl =>
      obtain ⟨r, hf, ⟨-, rfl⟩ | ⟨hn, rfl⟩⟩ := import_of_dropExports hi
      · cases hl
      · exact ⟨.childSetParent hf hl, hn⟩
  · rintro ⟨hw, hn⟩
    cases hw with
    | exportUnmap he =>
      have hne : _ ∉ ps.map Prod.fst := hn
      exact .exportUnmap (by rw [find?_exports_dropExports, if_neg hne, he])
    | childUnmap hf hl => exact .childUnmap (hkeep hn hf) hl
    | childSetParent hf hl => exact .childSetParent (hkeep hn hf) hl

theorem dropExports (h : x.Coherent) {ps : List (ExportId × Export)}
    (hps : ∀ p ∈ ps, x.exports.find? p.1 = some p.2) : (x.dropExports ps).Coherent where
  links := h.dropExports_links hps
  watched := h.watched.remove (Gone (ps.map Prod.fst) (importersOf ps)) (mem_tokensOf_iff hps)
    (holds_dropExports_iff ps)

/-! ## Imports that go -/

theorem find?_exports_dropImports (ps : List (ImportId × Import)) (e : ExportId) :
    (x.dropImports ps).exports.find? e = (x.exports.find? e).map (fun s =>
      { s with importers := s.importers.filter (fun i => decide (i ∉ ps.map Prod.fst)) }) :=
  Table.find?_mapValues _ _ _

theorem find?_imports_dropImports (ps : List (ImportId × Import)) (i : ImportId) :
    (x.dropImports ps).imports.find? i =
      if i ∈ ps.map Prod.fst then none else x.imports.find? i := by
  rw [Exchange.dropImports, Table.find?_filter]
  cases x.imports.find? i <;> by_cases hi : i ∈ ps.map Prod.fst <;> simp [hi]

/-- Dropping what an importer has made leaves the imports of the others. -/
theorem find?_imports_dropOwn (m : ImporterId) (i : ImportId) :
    (x.dropImports (x.ownImports m)).imports.find? i =
      if i.importer = m then none else x.imports.find? i := by
  rw [Exchange.dropImports, ← filter_ownImports, Table.find?_filter]
  cases x.imports.find? i <;> by_cases hi : i.importer = m <;> simp [hi, Option.filter_some]

theorem import_of_dropImports {ps : List (ImportId × Import)} {i : ImportId} {r : Import}
    (hi : (x.dropImports ps).imports.find? i = some r) :
    i ∉ ps.map Prod.fst ∧ x.imports.find? i = some r := by
  rw [find?_imports_dropImports] at hi
  split at hi
  · cases hi
  · next hn => exact ⟨hn, hi⟩

theorem dropImports_links (h : x.Coherent) (ps : List (ImportId × Import)) :
    Links (x.dropImports ps).exports (x.dropImports ps).imports := by
  have hexport : ∀ {e s'}, (x.dropImports ps).exports.find? e = some s' →
      ∃ s, x.exports.find? e = some s ∧
        { s with importers := s.importers.filter (fun i => decide (i ∉ ps.map Prod.fst)) } =
          s' := by
    intro e s' he
    rwa [find?_exports_dropImports, Option.map_eq_some_iff] at he
  refine ⟨?_, ?_, ?_, fun hi => h.links.childless (import_of_dropImports hi).2, ?_,
    fun hi => h.links.linkPlaced (import_of_dropImports hi).2,
    fun hi => h.links.surfaces_nodup (import_of_dropImports hi).2, ?_⟩
  · intro i r e hi hs
    obtain ⟨hn, hf⟩ := import_of_dropImports hi
    obtain ⟨s, he, hm⟩ := h.links.listed hf hs
    refine ⟨_, by rw [find?_exports_dropImports, he]; rfl, ?_⟩
    exact List.mem_filter.mpr ⟨hm, by simpa using hn⟩
  · intro e s' i he hm
    obtain ⟨s, he', rfl⟩ := hexport he
    obtain ⟨hm, hn⟩ := List.mem_filter.mp hm
    obtain ⟨r, hf, hs⟩ := h.links.resolved he' hm
    refine ⟨r, ?_, hs⟩
    rw [find?_imports_dropImports, if_neg (of_decide_eq_true hn), hf]
  · intro e s' he
    obtain ⟨s, he', rfl⟩ := hexport he
    exact (h.links.ordered he').sublist List.filter_sublist
  · intro e s' he
    obtain ⟨s, he', rfl⟩ := hexport he
    exact ⟨(h.links.exportPlaced he').unmap_surface, (h.links.exportPlaced he').unmap_event⟩
  · intro i j r s l m hi hj
    exact h.links.oneParent (import_of_dropImports hi).2 (import_of_dropImports hj).2

theorem mem_linkTokens_iff {ps : List (ImportId × Import)}
    (hps : ∀ p ∈ ps, x.imports.find? p.1 = some p.2) (t : Subscription) :
    t ∈ (ps.flatMap (fun p => p.2.children)).flatMap ChildLink.tokens ↔
      ∃ w, Holds x.exports x.imports t w ∧ Gone [] (ps.map Prod.fst) w := by
  simp only [List.mem_flatMap, ChildLink.tokens, List.mem_cons, List.not_mem_nil, or_false]
  constructor
  · rintro ⟨l, ⟨p, hp, hl⟩, rfl | rfl⟩
    · exact ⟨_, .childUnmap (hps p hp) hl, List.mem_map_of_mem hp⟩
    · exact ⟨_, .childSetParent (hps p hp) hl, List.mem_map_of_mem hp⟩
  · rintro ⟨w, hw, hg⟩
    cases hw with
    | exportUnmap hf => cases hg
    | childUnmap hf hl =>
      obtain ⟨p, hp, rfl⟩ := List.mem_map.mp hg
      rw [hps p hp] at hf
      cases hf
      exact ⟨_, ⟨p, hp, hl⟩, Or.inl rfl⟩
    | childSetParent hf hl =>
      obtain ⟨p, hp, rfl⟩ := List.mem_map.mp hg
      rw [hps p hp] at hf
      cases hf
      exact ⟨_, ⟨p, hp, hl⟩, Or.inr rfl⟩

theorem holds_dropImports_iff (ps : List (ImportId × Import)) (t : Subscription) (w : Watcher) :
    Holds (x.dropImports ps).exports (x.dropImports ps).imports t w ↔
      Holds x.exports x.imports t w ∧ ¬ Gone [] (ps.map Prod.fst) w := by
  have hkeep : ∀ {i r}, i ∉ ps.map Prod.fst → x.imports.find? i = some r →
      (x.dropImports ps).imports.find? i = some r := by
    intro i r hn hf
    rw [find?_imports_dropImports, if_neg hn, hf]
  constructor
  · intro hw
    cases hw with
    | exportUnmap he =>
      rw [find?_exports_dropImports, Option.map_eq_some_iff] at he
      obtain ⟨s, hf, rfl⟩ := he
      have hw : Holds x.exports x.imports s.unmap _ := .exportUnmap hf
      exact ⟨hw, List.not_mem_nil⟩
    | childUnmap hi hl =>
      exact ⟨.childUnmap (import_of_dropImports hi).2 hl, (import_of_dropImports hi).1⟩
    | childSetParent hi hl =>
      exact ⟨.childSetParent (import_of_dropImports hi).2 hl, (import_of_dropImports hi).1⟩
  · rintro ⟨hw, hn⟩
    cases hw with
    | @exportUnmap e s he =>
      have hf : (x.dropImports ps).exports.find? e = some { s with
          importers := s.importers.filter (fun i => decide (i ∉ ps.map Prod.fst)) } := by
        rw [find?_exports_dropImports, he]
        rfl
      have hw := Holds.exportUnmap (I := (x.dropImports ps).imports) hf
      exact hw
    | childUnmap hf hl => exact .childUnmap (hkeep hn hf) hl
    | childSetParent hf hl => exact .childSetParent (hkeep hn hf) hl

theorem dropImports (h : x.Coherent) {ps : List (ImportId × Import)}
    (hps : ∀ p ∈ ps, x.imports.find? p.1 = some p.2) : (x.dropImports ps).Coherent where
  links := h.dropImports_links ps
  watched := h.watched.remove (Gone [] (ps.map Prod.fst)) (mem_linkTokens_iff hps)
    (holds_dropImports_iff ps)

end Coherent

end SurfaceExchange.Exchange

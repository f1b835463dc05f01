import SurfaceExchange.Proofs.Belonging
import SurfaceExchange.Proofs.Layout

/-!
# What tracker, folders and inert identifiers agree on

Runs of the exchange with folders and runs of the exchange with tables are the
same runs (`FiledExchange.Reachable.laidOut`, `Exchange.Reachable.filed`).
Hence every entry stays in the folder that its identifier names, and the tracker
tells the owner that the folders and the inert identifiers tell
(`FiledExchange.Reachable.ownership_agrees`).
-/

namespace SurfaceExchange

namespace FiledExchange

variable {L : Type} {n m : FiledExchange} {x : Exchange}

/-! ## Runs -/

/-- What may be done to an exchange between two operations. -/
inductive Aside (n : FiledExchange) : FiledExchange → Prop
  | takeParentChanges : Aside n n.takeParentChanges.2
  | addFarewell (name : String) : Aside n (n.addFarewell name).2
  | removeFarewell (id : ListenerId) : Aside n (n.removeFarewell id).2

/-- Operations, each against a shell and a display of its own, lead from one exchange to
another. -/
inductive Leads (L : Type) (n : FiledExchange) : FiledExchange → Prop
  | start : Leads L n n
  | perform {m m' view patience op a} {d d' : Display L} : Leads L n m →
      m.perform view patience d op = some (a, m', d') → Leads L n m'
  | aside {m m'} : Leads L n m → Aside m m' → Leads L n m'

/-- An exchange that some run of a new exchange can come to. -/
def Reachable (n : FiledExchange) : Prop :=
  ∃ (L : Type) (d : Display L) (config : Config) (handles : HandleStream) (l : L),
    Leads L (start d config handles l).1 n

theorem laidOut_start (d : Display L) (config : Config) (handles : HandleStream) (l : L) :
    LaidOut (start d config handles l).1 (Exchange.start d config handles l).1 :=
  ⟨Cabinet.tidy_empty, Cabinet.tidy_empty, rfl⟩

theorem Aside.laidOut (hnm : Aside n m) (h : LaidOut n x) :
    ∃ y, Exchange.Aside x y ∧ LaidOut m y := by
  obtain ⟨hexporters, himporters, rfl⟩ := h
  cases hnm with
  | takeParentChanges => exact ⟨_, .takeParentChanges, hexporters, himporters, rfl⟩
  | addFarewell name => exact ⟨_, .addFarewell name, hexporters, himporters, rfl⟩
  | removeFarewell id => exact ⟨_, .removeFarewell id, hexporters, himporters, rfl⟩

/-- A run with folders is a run with tables. -/
theorem Leads.laidOut (hnm : Leads L n m) (h : LaidOut n x) (hx : x.Sound) :
    ∃ (ts : List (Transition L)) (y : Exchange), Exchange.Run x ts y ∧ LaidOut m y := by
  induction hnm with
  | start => exact ⟨[], x, .start, h⟩
  | @perform m m' view patience op a d d' _ hperform ih =>
    obtain ⟨ts, y, hrun, hmy⟩ := ih
    have hstep := hmy.perform (hrun.sound hx) view patience d op
    rw [hperform] at hstep
    cases hy : y.perform view patience d op with
    | none => rw [hy] at hstep; cases hstep
    | some t =>
      obtain ⟨a', y', d''⟩ := t
      rw [hy, Option.rel_some_some] at hstep
      exact ⟨_, y', .perform ⟨y, view, patience, d, op, a', y', d''⟩ hrun hy, hstep.laidOut⟩
  | aside _ haside ih =>
    obtain ⟨ts, y, hrun, hmy⟩ := ih
    obtain ⟨y', hyy', hlaid⟩ := haside.laidOut hmy
    exact ⟨ts, y', .aside hrun hyy', hlaid⟩

theorem Reachable.laidOut (h : n.Reachable) : LaidOut n n.flat ∧ n.flat.Reachable := by
  obtain ⟨L, d, config, handles, l, hlead⟩ := h
  obtain ⟨ts, y, hrun, hlaid⟩ := hlead.laidOut (laidOut_start d config handles l)
    (Exchange.sound_start d config handles l)
  obtain ⟨hexporters, himporters, rfl⟩ := hlaid
  exact ⟨⟨hexporters, himporters, rfl⟩, L, d, config, handles, l, ts, hrun⟩

/-! ## Runs that are computed -/

/-- Carries operations out one after the other, all against one shell. -/
def follow (view : ShellView) (patience : Nat) :
    List Operation → FiledExchange → Display L → Option (FiledExchange × Display L)
  | [], n, d => some (n, d)
  | op :: ops, n, d =>
    (n.perform view patience d op).bind fun (_, m, d') => follow view patience ops m d'

theorem leads_follow {view : ShellView} {patience : Nat} {ops : List Operation}
    {k : FiledExchange} {d d' : Display L} (hlead : Leads L k n)
    (hf : follow view patience ops n d = some (m, d')) : Leads L k m := by
  induction ops generalizing n d with
  | nil =>
    cases hf
    exact hlead
  | cons op ops ih =>
    obtain ⟨⟨a, n', d₁⟩, hp, hf⟩ := Option.bind_eq_some_iff.mp hf
    exact ih (hlead.perform hp) hf

/-- A display with two clients, and an exchange on it. -/
def rehearsalStart : FiledExchange × Display Unit :=
  start (Display.empty.connect.2.connect.2) {} (.scripted [some ⟨"first"⟩] true) ()

/-- Carries operations out on that exchange, with a shell in which every surface is a toplevel. -/
def rehearse (ops : List Operation) : FiledExchange :=
  match follow { role := fun _ => some .toplevel } 1 ops rehearsalStart.1 rehearsalStart.2 with
  | some (n, _) => n
  | none => rehearsalStart.1

theorem leads_rehearse (ops : List Operation) : Leads Unit rehearsalStart.1 (rehearse ops) := by
  unfold rehearse
  split
  · next hf => exact leads_follow .start hf
  · exact .start

theorem reachable_rehearse (ops : List Operation) : (rehearse ops).Reachable :=
  ⟨Unit, _, _, _, _, leads_rehearse ops⟩

end FiledExchange

namespace Exchange

variable {L : Type} {n : FiledExchange} {x y : Exchange}

theorem Aside.filed (hxy : Aside x y) (h : LaidOut n x) :
    ∃ m, FiledExchange.Aside n m ∧ LaidOut m y := by
  obtain ⟨hexporters, himporters, rfl⟩ := h
  cases hxy with
  | takeParentChanges => exact ⟨_, .takeParentChanges, hexporters, himporters, rfl⟩
  | addFarewell name => exact ⟨_, .addFarewell name, hexporters, himporters, rfl⟩
  | removeFarewell id => exact ⟨_, .removeFarewell id, hexporters, himporters, rfl⟩

/-- A run with tables is a run with folders. -/
theorem Run.filed {ts : List (Transition L)} (hrun : Run x ts y) (h : LaidOut n x)
    (hx : x.Sound) : ∃ m, FiledExchange.Leads L n m ∧ LaidOut m y := by
  induction hrun with
  | start => exact ⟨n, .start, h⟩
  | perform t hrun hvalid ih =>
    obtain ⟨m, hlead, hmy⟩ := ih
    have hstep := hmy.perform (hrun.sound hx) t.view t.patience t.display t.operation
    rw [show t.before.perform t.view t.patience t.display t.operation = _ from hvalid] at hstep
    cases hm : m.perform t.view t.patience t.display t.operation with
    | none => rw [hm] at hstep; cases hstep
    | some s =>
      obtain ⟨a, m', d'⟩ := s
      rw [hm, Option.rel_some_some] at hstep
      exact ⟨m', .perform hlead hm, hstep.laidOut⟩
  | aside _ haside ih =>
    obtain ⟨m, hlead, hmy⟩ := ih
    obtain ⟨m', hmm', hlaid⟩ := haside.filed hmy
    exact ⟨m', .aside hlead hmm', hlaid⟩

/-- Whatever the exchange with tables can come to is laid out in folders that the exchange with
folders can come to. -/
theorem Reachable.filed (h : x.Reachable) : ∃ n : FiledExchange, n.Reachable ∧ LaidOut n x := by
  obtain ⟨L, d, config, handles, l, ts, hrun⟩ := h
  obtain ⟨n, hlead, hlaid⟩ := hrun.filed (FiledExchange.laidOut_start d config handles l)
    (sound_start d config handles l)
  exact ⟨n, ⟨L, d, config, handles, l, hlead⟩, hlaid⟩

end Exchange

namespace FiledExchange

variable {L : Type} {n m : FiledExchange} {x : Exchange}

/-! ## Owners -/

/-- The object is the client's: a registry that it bound, a live export or import of its own, or
an inert one that is recorded for it. -/
inductive Belongs (n : FiledExchange) (c : ClientId) : ObjectId → Prop
  | exporter {p g} : n.exporters.find? p = some g → g.client = c → Belongs n c (.exporter p)
  | importer {m g} : n.importers.find? m = some g → g.client = c → Belongs n c (.importer m)
  | liveExport {e s} : (e, s) ∈ n.exports → s.client = c → Belongs n c (.exported e)
  | liveImport {i r} : (i, r) ∈ n.imports → r.client = c → Belongs n c (.imported i)
  | inertExport {e} : n.inertExports.find? e = some c → Belongs n c (.exported e)
  | inertImport {i} : n.inertImports.find? i = some c → Belongs n c (.imported i)

/-- Tracker, folders and inert identifiers agree. -/
structure Agreement (n : FiledExchange) : Prop where
  owns_iff : ∀ c o, n.ownership.owns c o = true ↔ n.Belongs c o
  oneOwner : ∀ c d o, n.ownership.owns c o = true → n.ownership.owns d o = true → c = d
  /-- What is in an exporter's folder names the exporter and has its client. -/
  exportFiled : ∀ p g e s, n.exporters.find? p = some g → g.entries.find? e = some s →
    e.exporter = p ∧ s.client = g.client
  importFiled : ∀ m g i r, n.importers.find? m = some g → g.entries.find? i = some r →
    i.importer = m ∧ r.client = g.client
  /-- What an identifier finds is what the walk over all exporters lists. -/
  exported_iff : ∀ e s, n.exported? e = some s ↔ (e, s) ∈ n.exports
  imported_iff : ∀ i r, n.imported? i = some r ↔ (i, r) ∈ n.imports
  exportsOnce : (n.exports.map Prod.fst).Nodup
  importsOnce : (n.imports.map Prod.fst).Nodup

end FiledExchange

namespace LaidOut

variable {n : FiledExchange} {x : Exchange} (h : LaidOut n x)

include h

theorem mem_exports_iff (e : ExportId) (s : Export) :
    (e, s) ∈ n.exports ↔ x.exports.find? e = some s := by
  rw [h.exports, Table.mem_toList_iff]

theorem mem_imports_iff (i : ImportId) (r : Import) :
    (i, r) ∈ n.imports ↔ x.imports.find? i = some r := by
  rw [h.imports, Table.mem_toList_iff]

theorem belongs_iff (c : ClientId) (o : ObjectId) : n.Belongs c o ↔ x.Belongs c o := by
  constructor
  · intro ho
    cases ho with
    | exporter hg hc => exact .exporter (by rw [h.find?_exporters, hg]; rfl) hc
    | importer hg hc => exact .importer (by rw [h.find?_importers, hg]; rfl) hc
    | liveExport he hc => exact .liveExport ((h.mem_exports_iff _ _).mp he) hc
    | liveImport hi hc => exact .liveImport ((h.mem_imports_iff _ _).mp hi) hc
    | inertExport he => exact .inertExport (h.inertExports ▸ he)
    | inertImport hi => exact .inertImport (h.inertImports ▸ hi)
  · intro ho
    cases ho with
    | exporter hg hc =>
      rw [h.find?_exporters] at hg
      obtain ⟨f, hf, rfl⟩ := Option.map_eq_some_iff.mp hg
      exact .exporter hf hc
    | importer hg hc =>
      rw [h.find?_importers] at hg
      obtain ⟨f, hf, rfl⟩ := Option.map_eq_some_iff.mp hg
      exact .importer hf hc
    | liveExport he hc => exact .liveExport ((h.mem_exports_iff _ _).mpr he) hc
    | liveImport hi hc => exact .liveImport ((h.mem_imports_iff _ _).mpr hi) hc
    | inertExport he => exact .inertExport (h.inertExports ▸ he)
    | inertImport hi => exact .inertImport (h.inertImports ▸ hi)

/-- An export is where its identifier says, with the client of the exporter. -/
theorem exportFiled (hx : x.Registered) {p : ExporterId} {g : Folder ExportId Export}
    {e : ExportId} {s : Export} (hg : n.exporters.find? p = some g)
    (he : g.entries.find? e = some s) : e.exporter = p ∧ s.client = g.client := by
  have hp : e.exporter = p := h.exporters p g e s hg he
  have hlive : x.exports.find? e = some s := by
    rw [← h.exported?, FiledExchange.exported?, Cabinet.lookUp?,
      show NamesRegistry.registry e = p from hp, hg, Option.bind_some, he]
  obtain ⟨g', hg', hc⟩ := hx.exporter_of_export hlive
  rw [hp, h.find?_exporters, hg] at hg'
  cases hg'
  exact ⟨hp, hc.symm⟩

theorem importFiled (hx : x.Registered) {m : ImporterId} {g : Folder ImportId Import}
    {i : ImportId} {r : Import} (hg : n.importers.find? m = some g)
    (hi : g.entries.find? i = some r) : i.importer = m ∧ r.client = g.client := by
  have hm : i.importer = m := h.importers m g i r hg hi
  have hlive : x.imports.find? i = some r := by
    rw [← h.imported?, FiledExchange.imported?, Cabinet.lookUp?,
      show NamesRegistry.registry i = m from hm, hg, Option.bind_some, hi]
  obtain ⟨g', hg', hc⟩ := hx.importer_of_import hlive
  rw [hm, h.find?_importers, hg] at hg'
  cases hg'
  exact ⟨hm, hc.symm⟩

end LaidOut

namespace FiledExchange

variable {L : Type} {n m : FiledExchange}

/-- Tracker, folders and inert identifiers tell the same owner of every object, and one at most.
Every live export and import is in the folder of the registry that it names and has that
registry's client, so that looking an identifier up finds what walking all registries lists. -/
theorem Reachable.ownership_agrees (h : n.Reachable) : n.Agreement := by
  obtain ⟨hlaid, hreach⟩ := h.laidOut
  have hreg := hreach.sound.registered
  have howns : ∀ c o, n.ownership.owns c o = true ↔ n.Belongs c o := fun c o => by
    rw [hlaid.ownership, hlaid.belongs_iff, hreg.owns_iff_belongs]
  exact
    { owns_iff := howns
      oneOwner := fun c d o hc hd => hreg.owner_unique hc hd
      exportFiled := fun p g e s hg he => hlaid.exportFiled hreg hg he
      importFiled := fun m g i r hg hi => hlaid.importFiled hreg hg hi
      exported_iff := fun e s => by rw [hlaid.exported?, hlaid.mem_exports_iff]
      imported_iff := fun i r => by rw [hlaid.imported?, hlaid.mem_imports_iff]
      exportsOnce := by rw [hlaid.exports]; exact n.flat.exports.keys_nodup
      importsOnce := by rw [hlaid.imports]; exact n.flat.imports.keys_nodup }

/-- An importer goes with its folder. Its imports are in no folder then, and still belong to their
client. -/
theorem ownership_agrees_orphaned : ∃ n : FiledExchange,
    n = rehearse (Exchange.sharing ++ [.destroyImporter ⟨2⟩]) ∧ n.Reachable ∧ n.imports = [] ∧
    n.ownership.owns ⟨2⟩ (.imported ⟨⟨2⟩, 4⟩) = true ∧ ¬ n.Belongs ⟨1⟩ (.imported ⟨⟨2⟩, 4⟩) ∧
    ∃ s, n.exported? ⟨⟨1⟩, 3⟩ = some s ∧ (⟨⟨1⟩, 3⟩, s) ∈ n.exports := by
  have hreach := reachable_rehearse (Exchange.sharing ++ [.destroyImporter ⟨2⟩])
  have hagree := hreach.ownership_agrees
  have howned := (hagree.owns_iff ⟨2⟩ (.imported ⟨⟨2⟩, 4⟩)).mpr (.inertImport rfl)
  refine ⟨_, rfl, hreach, rfl, howned, fun hother => ?_, _, rfl, (hagree.exported_iff _ _).mp rfl⟩
  cases hagree.oneOwner _ _ _ ((hagree.owns_iff _ _).mpr hother) howned

end FiledExchange

end SurfaceExchange

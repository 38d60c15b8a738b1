import QuantumCompiler.Proofs.Host.Registry
import QuantumCompiler.Proofs.Host.Run

/-!
# A registry that knows its owners

A `Ledger` is a registry with the owner written beside each entry: the plugin whose
routine made the latest registration of the name, or nobody if that registration was a
direct one. It records nothing with the plugins. What belongs to a plugin is taken away
by its tag, not by the identities of handles.

It goes through the same actions as a host. What it makes of them is simple enough to be
read off the definitions; `entry_removeOwned_recordAll` sums up what is left of a routine
whose registrations are taken away again.
-/

namespace QuantumCompiler

/-- A registered handle and the plugin it was registered for. -/
structure OwnedEntry where
  handle : Handle
  owner : Option String

/-- Entries that know their owners, and the loaded plugins. -/
structure Ledger where
  entry : String → Option OwnedEntry := fun _ => none
  plugins : Table Plugin := {}

namespace Ledger

def empty : Ledger := {}

def record (l : Ledger) (owner : Option String) (name : String) (handle : Handle) : Ledger :=
  { l with entry := fun n => if n = name then some ⟨handle, owner⟩ else l.entry n }

def recordAll (l : Ledger) (owner : Option String) (rs : Registrations) : Ledger :=
  rs.foldl (fun l (name, handle) => l.record owner name handle) l

def remove (l : Ledger) (name : String) : Ledger :=
  { l with entry := fun n => if n = name then none else l.entry n }

/-- Remove every entry that is tagged with this plugin. -/
def removeOwned (l : Ledger) (plugin : String) : Ledger :=
  { l with entry := fun n => (l.entry n).filter fun e => e.owner ≠ some plugin }

def removeInstance (l : Ledger) (name : String) (handle : Handle) : Ledger :=
  match l.entry name with
  | some e => if e.handle.id = handle.id then l.remove name else l
  | none => l

def load (l : Ledger) (p : Plugin) : Ledger × Except RegistryFault Unit :=
  if l.plugins.contains p.name then (l, .error (.pluginAlreadyLoaded p.name))
  else
    let started := l.recordAll (some p.name) p.start.registrations
    match p.start.outcome with
    | .error fault => (started.removeOwned p.name, .error fault)
    | .ok () => ({ started with plugins := l.plugins.insert p.name p }, .ok ())

def loadEach (l : Ledger) : List Plugin → Ledger
  | [] => l
  | p :: ps =>
    match l.load p with
    | (l, .ok ()) => l.loadEach ps
    | (l, .error _) => l

def unload (l : Ledger) (name : String) : Ledger :=
  match l.plugins.get? name with
  | none => l
  | some p =>
    { (l.recordAll (some name) p.stop.registrations).removeOwned name with
      plugins := l.plugins.erase name }

def unloadEach (l : Ledger) (names : List String) : Ledger :=
  names.foldl unload l

/-- The ledger after an action. The default is none of its concern. -/
def act (l : Ledger) : Action → Ledger
  | .register handle => l.record none handle.compiler.name handle
  | .registerAs name handle => l.record none name handle
  | .unregister name => l.remove name
  | .unregisterInstance name handle => l.removeInstance name handle
  | .setDefault _ => l
  | .load p => (l.load p).1
  | .unload name => l.unload name
  | .unloadAll => l.unloadEach l.plugins.names
  | .loadBuiltins id s => l.loadEach (Host.enabledPlugins id s)

def run (l : Ledger) (actions : List Action) : Ledger :=
  actions.foldl act l

/-- The owner written beside a name's entry. -/
def tag (l : Ledger) (name : String) : Option String :=
  (l.entry name).bind (·.owner)

theorem recordAll_cons (l : Ledger) (owner : Option String) (name : String) (handle : Handle)
    (rs : Registrations) :
    l.recordAll owner ((name, handle) :: rs) = (l.record owner name handle).recordAll owner rs :=
  rfl

theorem plugins_recordAll (l : Ledger) (owner : Option String) (rs : Registrations) :
    (l.recordAll owner rs).plugins = l.plugins := by
  induction rs generalizing l with
  | nil => rfl
  | cons entry rs ih => rw [recordAll_cons, ih]; rfl

theorem entry_recordAll_of_notMem (l : Ledger) (owner : Option String) {rs : Registrations}
    {n : String} (h : n ∉ rs.names) : (l.recordAll owner rs).entry n = l.entry n :=
  Registrations.lookup_foldl_of_notMem entry (⟨·, owner⟩) (fun _ _ _ _ => rfl) h l

theorem entry_recordAll_of_mem (l : Ledger) (owner : Option String) {rs : Registrations}
    {n : String} (h : n ∈ rs.names) :
    ∃ handle, (n, handle) ∈ rs ∧ (l.recordAll owner rs).entry n = some ⟨handle, owner⟩ :=
  Registrations.lookup_foldl_of_mem entry (⟨·, owner⟩) (fun _ _ _ _ => rfl) h l

/-- Registrations for a plugin that are removed by its tag leave their names unbound. Of
the entries from before, those with the tag go. -/
theorem entry_removeOwned_recordAll (l : Ledger) (plugin : String) (rs : Registrations)
    (n : String) :
    ((l.recordAll (some plugin) rs).removeOwned plugin).entry n =
      if n ∈ rs.names then none else (l.entry n).filter fun e => e.owner ≠ some plugin := by
  show ((l.recordAll (some plugin) rs).entry n).filter _ = _
  by_cases hn : n ∈ rs.names
  · obtain ⟨handle, -, hlast⟩ := l.entry_recordAll_of_mem (some plugin) hn
    rw [if_pos hn, hlast]
    simp
  · rw [if_neg hn, l.entry_recordAll_of_notMem _ hn]

end Ledger

end QuantumCompiler

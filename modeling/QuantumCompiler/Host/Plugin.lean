import QuantumCompiler.Host.Registry

/-!
# Plugins and their host

A plugin brings compilers. When the host loads it, the plugin's start routine
registers them; when the host unloads it, the stop routine runs and every
registration made for the plugin is withdrawn, as far as it is still in force:
a name that something else was registered under in the meantime is left alone.

A routine acts on the registry only by registering. It is therefore given by
the registrations it makes, in order, and by how it ends.
-/

namespace QuantumCompiler

/-- Names and the handles registered under them, in order of registration. -/
abbrev Registrations := List (String × Handle)

/-- What a plugin does when it starts or stops. -/
structure Routine where
  /-- The registrations it makes. -/
  registrations : Registrations := []
  /-- How it ends after making them. -/
  outcome : Except RegistryFault Unit := .ok ()

/-- A provider of compilers. -/
structure Plugin where
  /-- The name, unique in a host. -/
  name : String
  /-- What it does when it is loaded. -/
  start : Routine := {}
  /-- What it does when it is unloaded. -/
  stop : Routine := {}
  /-- Whether the host reports when it starts and stops the plugin. -/
  traced : Bool := false

/-- A plugin that is running, with the registrations made for it. -/
structure LoadedPlugin where
  /-- The plugin. -/
  plugin : Plugin
  /-- The registrations its start routine made. -/
  recorded : Registrations

/-- Whether a loaded plugin recorded this handle under this name. -/
def LoadedPlugin.owns (l : LoadedPlugin) (name : String) (handle : Handle) : Bool :=
  l.recorded.any fun (n, c) => n = name && c.id = handle.id

/-- A compiler registry and the plugins loaded into it. -/
structure Host where
  /-- The registry that the plugins register into. -/
  registry : CompilerRegistry := {}
  /-- The loaded plugins by name. -/
  plugins : Table LoadedPlugin := {}

namespace CompilerRegistry

/-- Make registrations one after the other. -/
def registerAll (r : CompilerRegistry) (rs : Registrations) : CompilerRegistry :=
  rs.foldl (fun r (name, handle) => r.registerAs name handle) r

/-- Withdraw registrations one after the other, as far as they are in force. -/
def withdraw (r : CompilerRegistry) (rs : Registrations) : CompilerRegistry :=
  rs.foldl (fun r (name, handle) => (r.unregisterInstance name handle).1) r

end CompilerRegistry

namespace Host

/-- The host without compilers and plugins. -/
def empty : Host := {}

/-- Start a plugin. If its routine fails, its registrations are withdrawn and the
plugin is not loaded. -/
def load (h : Host) (p : Plugin) : Host × Except RegistryFault Unit :=
  if h.plugins.contains p.name then (h, .error (.pluginAlreadyLoaded p.name))
  else
    let registry := h.registry.registerAll p.start.registrations
    match p.start.outcome with
    | .error fault => ({ h with registry := registry.withdraw p.start.registrations }, .error fault)
    | .ok () =>
      ({ registry := registry
         plugins := h.plugins.insert p.name ⟨p, p.start.registrations⟩ }, .ok ())

/-- Stop a plugin and withdraw its registrations, those of the stop routine
included, whether or not that routine fails. -/
def unload (h : Host) (name : String) : Host × Except RegistryFault Unit :=
  match h.plugins.get? name with
  | none => (h, .error (.pluginNotLoaded name))
  | some loaded =>
    let stop := loaded.plugin.stop
    let registry := h.registry.registerAll stop.registrations
    ({ registry := registry.withdraw (loaded.recorded ++ stop.registrations)
       plugins := h.plugins.erase name }, stop.outcome)

/-- The names of the loaded plugins, in increasing order. -/
def loaded (h : Host) : List String :=
  h.plugins.names

/-- Unload the named plugins one after the other. -/
def unloadEach (h : Host) (names : List String) : Host :=
  names.foldl (fun h name => (h.unload name).1) h

/-- Unload all plugins in order of name. -/
def unloadAll (h : Host) : Host :=
  h.unloadEach h.loaded

/-- The loaded plugin that made the registration in force under a name. -/
def ownerOf (h : Host) (name : String) : Option String :=
  match h.registry.compilers.get? name with
  | none => none
  | some current => (h.plugins.entries.find? fun e => e.2.owns name current).map (·.1)

-- ---------------------------------------------------------------------------
-- Reports
-- ---------------------------------------------------------------------------

/-- The two moments in the life of a plugin. -/
inductive Phase where
  | start
  | stop
  deriving DecidableEq, Repr

/-- A routine that ran: its moment, its plugin, and the names registered for the
plugin when it ended. -/
structure Activity where
  /-- The moment. -/
  phase : Phase
  /-- The plugin. -/
  plugin : String
  /-- The names registered for the plugin. -/
  registered : List String
  deriving DecidableEq, Repr

/-- The routines that loading a plugin runs. -/
def loadActivity (h : Host) (p : Plugin) : List Activity :=
  if h.plugins.contains p.name || !p.traced then []
  else [⟨.start, p.name, p.start.registrations.map (·.1)⟩]

/-- The routines that unloading a plugin runs. -/
def unloadActivity (h : Host) (name : String) : List Activity :=
  match h.plugins.get? name with
  | none => []
  | some loaded =>
    if loaded.plugin.traced then
      [⟨.stop, name, (loaded.recorded ++ loaded.plugin.stop.registrations).map (·.1)⟩]
    else []

/-- The routines that unloading all plugins runs. -/
def unloadAllActivity (h : Host) : List Activity :=
  h.loaded.flatMap h.unloadActivity

end Host

end QuantumCompiler

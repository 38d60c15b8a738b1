import QuantumCompiler.Host.Plugin
import QuantumCompiler.Settings.Basic

/-!
# The built-in plugins

Each back end comes as a plugin of its own name that registers one compiler. The
plugins that the settings enable are loaded in a fixed order, gate model first;
then the configured default is applied.
-/

namespace QuantumCompiler

/-- A plugin that registers one compiler under the compiler's own name. -/
def Plugin.single (handle : Handle) : Plugin :=
  { name := handle.compiler.name
    start := { registrations := [(handle.compiler.name, handle)] } }

/-- The plugin of the gate-model back end. Its handle has identity `id`. -/
def Plugin.qmi (id : Nat) (target : QmiTarget) (limits : Limits) : Plugin :=
  .single ⟨id, (Qmi.mk target limits).compiler⟩

/-- The plugin of the annealer back end. Its handle has identity `id`. -/
def Plugin.annealer (id : Nat) (target : AnnealerTarget) (limits : Limits) : Plugin :=
  .single ⟨id, (Annealer.mk target limits).compiler⟩

namespace Host

/-- Load plugins up to the first that fails. -/
def loadEach (h : Host) : List Plugin → Host × Except RegistryFault Unit
  | [] => (h, .ok ())
  | p :: ps =>
    match h.load p with
    | (h, .ok ()) => h.loadEach ps
    | (h, .error fault) => (h, .error fault)

/-- The plugins that the settings enable. Their handles have the identities `id` and
`id + 1`. -/
def enabledPlugins (id : Nat) (s : Settings) : List Plugin :=
  (if s.compilers.qmi.enabled then [Plugin.qmi id s.compilers.qmi.toQmiTarget s.limits] else []) ++
    (if s.compilers.annealer.enabled then
      [Plugin.annealer (id + 1) s.compilers.annealer.toAnnealerTarget s.limits] else [])

/-- Load the enabled back ends and apply the configured default. -/
def loadBuiltins (h : Host) (id : Nat) (s : Settings) : Host × Except RegistryFault Unit :=
  match h.loadEach (enabledPlugins id s) with
  | (h, .error fault) => (h, .error fault)
  | (h, .ok ()) =>
    match s.compilers.defaultName with
    | none => (h, .ok ())
    | some name =>
      match h.registry.setDefault name with
      | .ok registry => ({ h with registry := registry }, .ok ())
      | .error fault => (h, .error fault)

end Host

end QuantumCompiler

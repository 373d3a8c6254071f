import Mathlib.Data.List.Basic

/-!
# Generated tags (identity/namer.rs)

A new record is tagged with two words chosen by a hash of its key: the same key
always gets the same tag.
-/

namespace Gannet.Namer

/-- `ADJECTIVES` -/
def adjectives : List String :=
  ["amber", "azure", "bold", "brisk", "calm", "cedar", "clear", "coral", "crisp", "dusk",
   "ember", "fleet", "frost", "gold", "grave", "iron", "jade", "keen", "lark", "lunar",
   "mesa", "mild", "misty", "noble", "opal", "pale", "pine", "quiet", "rapid", "raven",
   "rigid", "rocky", "sage", "salt", "sharp", "silk", "slate", "solar", "stark", "steel",
   "still", "stone", "storm", "stout", "swift", "tidal", "tawny", "thorn", "vale",
   "vivid", "warm", "wild", "wry", "zeal"]

/-- `NOUNS` -/
def nouns : List String :=
  ["anchor", "anvil", "arch", "arrow", "axle", "basin", "beam", "bell", "blade", "bloom",
   "bolt", "bough", "brook", "cape", "chain", "cliff", "coil", "crest", "crown", "delta",
   "dome", "draft", "drift", "drum", "dune", "fern", "field", "flare", "flint", "forge",
   "gale", "gate", "gear", "glen", "grove", "helm", "hull", "keel", "knoll", "lance",
   "ledge", "loom", "mast", "mill", "moor", "notch", "orbit", "peak", "pike", "plume",
   "pond", "quill", "rail", "reef", "ridge", "rivet", "rook", "root", "rudder", "rune",
   "shaft", "shore", "silt", "slab", "spar", "spike", "spire", "spool", "sprig", "squad",
   "stave", "stem", "step", "tide", "torch", "trace", "trail", "twig", "vale", "vault",
   "veil", "vent", "wake", "wall", "wave", "wedge", "well", "wire"]

/-- `h · 0x100000001b3 + b` over the bytes of the key, modulo 2⁶⁴. -/
def hashKey (key : String) : UInt64 :=
  key.toUTF8.data.toList.foldl (fun h b => h * 0x100000001b3 + b.toUInt64) 0xcbf29ce484222325

/-- The tag `namer::generate` gives a key, on a 64-bit `usize`. -/
def generate (key : String) : String :=
  let h := hashKey key
  let adj := adjectives.get ⟨h.toNat % adjectives.length, Nat.mod_lt _ (by decide)⟩
  let noun := nouns.get ⟨(h >>> 32).toNat % nouns.length, Nat.mod_lt _ (by decide)⟩
  adj ++ "-" ++ noun

end Gannet.Namer

import Mathlib.Data.List.Sort
import PolicyCheck.Dictionary
import PolicyCheck.Proofs.Pairs

/-!
# Dictionaries by what they hold

A dictionary is determined by the values under its names, since each name has one place in the order.
-/

namespace PolicyCheck.Dictionary

variable {α : Type} {d d' : Dictionary α} {name : String} {value : α}

theorem pairwise_entries (d : Dictionary α) : d.entries.Pairwise fun e e' => e.1 < e'.1 :=
  List.pairwise_map.1 d.ascending

theorem mem_entries_iff : (name, value) ∈ d.entries ↔ d.get? name = some value := by
  have hnodup : d.names.Nodup := d.ascending.imp String.ne_of_lt
  exact (lookup_eq_some_iff_mem hnodup).symm

theorem mem_names_iff : name ∈ d.names ↔ ∃ value, d.get? name = some value := by
  simp only [names, List.mem_map, Prod.exists, mem_entries_iff, exists_eq_right, exists_comm]

theorem ext_get? (h : ∀ name, d.get? name = d'.get? name) : d = d' := by
  have hentries : d.entries = d'.entries := by
    have : Std.Irrefl fun e e' : String × α => e.1 < e'.1 := ⟨fun e => String.lt_irrefl e.1⟩
    have : Std.Antisymm fun e e' : String × α => e.1 < e'.1 :=
      ⟨fun e e' hlt hlt' => absurd hlt' (String.lt_asymm hlt)⟩
    refine d.pairwise_entries.eq_of_mem_iff d'.pairwise_entries fun e => ?_
    rw [mem_entries_iff, mem_entries_iff, h]
  obtain ⟨entries, hascending⟩ := d
  obtain rfl : entries = d'.entries := hentries
  rfl

end PolicyCheck.Dictionary

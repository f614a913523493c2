import PolicyCheck.Proofs.Interpreter.Output
import PolicyCheck.Proofs.Interpreter.Submission

/-!
# Made-up names

Two hosts are alike when they differ in nothing that is there before a run: what they draw for the names of
temporary entries, and what their programs do, may differ. If the names that the next runs on them make up
stand nowhere else, exchanging these names leads from the run on the one host to the run on the other.
-/

namespace PolicyCheck

namespace Draw

theorem utf8Size_of_isAlphanum {c : Char} (h : c.isAlphanum = true) : c.utf8Size = 1 := by
  have hranges : ((65 ≤ c.val ∧ c.val ≤ 90) ∨ (97 ≤ c.val ∧ c.val ≤ 122)) ∨ (48 ≤ c.val ∧ c.val ≤ 57) := by
    change (decide (65 ≤ c.val ∧ c.val ≤ 90) || (decide (97 ≤ c.val) && decide (c.val ≤ 122)) ||
      (decide (48 ≤ c.val) && decide (c.val ≤ 57))) = true at h
    simpa only [Bool.or_eq_true, Bool.and_eq_true, decide_eq_true_eq] using h
  have hlimit (n : UInt32) (hn : n ≤ 127) (hc : c.val ≤ n) : c.val ≤ 127 := UInt32.le_trans hc hn
  rw [Char.utf8Size_eq_one_iff]
  rcases hranges with (⟨-, h⟩ | ⟨-, h⟩) | ⟨-, h⟩
  · exact hlimit 90 (by decide) h
  · exact hlimit 122 (by decide) h
  · exact hlimit 57 (by decide) h

theorem utf8ByteSize_ofList {cs : List Char} (h : ∀ c ∈ cs, c.isAlphanum = true) :
    (String.ofList cs).utf8ByteSize = cs.length := by
  induction cs with
  | nil => rfl
  | cons c cs ih =>
    obtain ⟨hc, hcs⟩ := List.forall_mem_cons.1 h
    rw [String.ofList_cons, String.utf8ByteSize_append, String.utf8ByteSize_singleton, utf8Size_of_isAlphanum hc,
      ih hcs, List.length_cons, Nat.add_comm]

theorem utf8ByteSize_text (d : Draw) : d.text.utf8ByteSize = 6 := by
  have hsize := utf8ByteSize_ofList d.alphanumeric
  rw [String.ofList_toList] at hsize
  exact hsize.trans d.six

theorem utf8ByteSize_between (front back : String) (d d' : Draw) :
    (front ++ d.text ++ back).utf8ByteSize = (front ++ d'.text ++ back).utf8ByteSize := by
  simp only [String.utf8ByteSize_append, utf8ByteSize_text]

end Draw

structure Host.Alike (h₁ h₂ : Host) : Prop where
  files : h₂.files = h₁.files
  directory : h₂.directory = h₁.directory
  temporary : h₂.temporary = h₁.temporary
  searchPath : h₂.searchPath = h₁.searchPath
  interpreterVariable? : h₂.interpreterVariable? = h₁.interpreterVariable?

theorem Host.Alike.eq {h₁ h₂ : Host} (halike : h₁.Alike h₂) :
    h₂ = { h₁ with
      behaviour := h₂.behaviour, draws := h₂.draws, drawn := h₂.drawn, starts := h₂.starts,
      output := h₂.output, complaints := h₂.complaints } := by
  obtain ⟨hfiles, hdirectory, htemporary, hsearch, hvariable⟩ := halike
  rw [← hfiles, ← hdirectory, ← htemporary, ← hsearch, ← hvariable]

theorem Host.Alike.symm {h₁ h₂ : Host} (halike : h₁.Alike h₂) : h₂.Alike h₁ :=
  ⟨halike.files.symm, halike.directory.symm, halike.temporary.symm, halike.searchPath.symm,
    halike.interpreterVariable?.symm⟩

namespace Interpreter

open FilePath (Plain)

/-- The name stands nowhere in the files and paths that a run with the settings meets. -/
structure Unknown (s : Settings) (h : Host) (name : String) : Prop where
  files : h.files.Lacks name
  directory : name ∉ h.directory
  temporary : name ∉ h.temporary
  searchPath : ∀ p ∈ h.searchPath, name ∉ p.pieces
  binary : name ∉ s.binary.pieces
  named : ∀ p ∈ s.named, name ∉ (h.absolute p).pieces

/-- Exchanges the names of two private directories, and those of two source files. -/
def exchange (root₁ source₁ root₂ source₂ : String) : String → String :=
  Equiv.swap root₁ root₂ ∘ Equiv.swap source₁ source₂

variable {s : Settings} {h h₁ h₂ : Host} {root root₁ root₂ source source₁ source₂ name : String}

theorem exchange_of_not_mem (hname : name ∉ [root₁, source₁, root₂, source₂]) :
    exchange root₁ source₁ root₂ source₂ name = name := by
  simp only [List.mem_cons, List.not_mem_nil, or_false, not_or] at hname
  obtain ⟨hroot₁, hsource₁, hroot₂, hsource₂⟩ := hname
  rw [exchange, Function.comp_apply, Equiv.swap_apply_of_ne_of_ne hsource₁ hsource₂,
    Equiv.swap_apply_of_ne_of_ne hroot₁ hroot₂]

theorem renaming_exchange (hmakes₁ : MakesUp h₁ root₁ source₁) (hmakes₂ : MakesUp h₂ root₂ source₂) :
    Renaming (exchange root₁ source₁ root₂ source₂) := by
  obtain ⟨hroot₁, hsource₁⟩ := hmakes₁.plain
  obtain ⟨hroot₂, hsource₂⟩ := hmakes₂.plain
  obtain ⟨d₁, d₁', rfl, rfl⟩ := hmakes₁.exists_draws
  obtain ⟨d₂, d₂', rfl, rfl⟩ := hmakes₂.exists_draws
  exact (Renaming.swap hroot₁ hroot₂ (Draw.utf8ByteSize_between _ _ d₁ d₂)).comp
    (.swap hsource₁ hsource₂ (Draw.utf8ByteSize_between _ _ d₁' d₂'))

theorem MakesUp.root_ne_source (hroot : MakesUp h₁ root source₁) (hsource : MakesUp h₂ root₂ source) :
    root ≠ source := by
  rintro rfl
  cases hroot.head?.1.symm.trans hsource.head?.2

theorem exchange_root (hmakes₁ : MakesUp h₁ root₁ source₁) (hmakes₂ : MakesUp h₂ root₂ source₂) :
    exchange root₁ source₁ root₂ source₂ root₁ = root₂ := by
  rw [exchange, Function.comp_apply,
    Equiv.swap_apply_of_ne_of_ne (hmakes₁.root_ne_source hmakes₁) (hmakes₁.root_ne_source hmakes₂),
    Equiv.swap_apply_left]

theorem exchange_source (hmakes₁ : MakesUp h₁ root₁ source₁) (hmakes₂ : MakesUp h₂ root₂ source₂) :
    exchange root₁ source₁ root₂ source₂ source₁ = source₂ := by
  rw [exchange, Function.comp_apply, Equiv.swap_apply_left,
    Equiv.swap_apply_of_ne_of_ne (hmakes₁.root_ne_source hmakes₂).symm (hmakes₂.root_ne_source hmakes₂).symm]

theorem MakesUp.relationName?_eq_none (hmakes : MakesUp h root source) :
    Workspace.relationName? root = none ∧ Workspace.relationName? source = none := by
  obtain ⟨d, d', rfl, rfl⟩ := hmakes.exists_draws
  refine ⟨Option.eq_none_iff_forall_ne_some.2 fun relation hrelation => ?_,
    Option.eq_none_iff_forall_ne_some.2 fun relation hrelation => ?_⟩
  · have hname := congrArg String.toList (Workspace.relationName?_eq_some_iff.1 hrelation).1
    have hpoint : '.' ∈ ("attest-policy-" ++ d.text ++ "").toList := by
      rw [hname, String.toList_append]
      exact List.mem_append_right _ (by decide)
    rw [String.toList_append, String.toList_append] at hpoint
    rcases List.mem_append.1 hpoint with hpoint | hpoint
    · rcases List.mem_append.1 hpoint with hpoint | hpoint
      · exact absurd hpoint (by decide)
      · exact absurd (d.alphanumeric '.' hpoint) (by decide)
    · cases hpoint
  · have hname := congrArg String.toList (Workspace.relationName?_eq_some_iff.1 hrelation).1
    have hlast := congrArg List.getLast? hname
    simp only [String.toList_append, List.getLast?_append] at hlast
    cases hlast

theorem relationName?_exchange (hmakes₁ : MakesUp h₁ root₁ source₁) (hmakes₂ : MakesUp h₂ root₂ source₂)
    (name : String) :
    Workspace.relationName? (exchange root₁ source₁ root₂ source₂ name) = Workspace.relationName? name := by
  obtain ⟨hroot₁, hsource₁⟩ := hmakes₁.relationName?_eq_none
  obtain ⟨hroot₂, hsource₂⟩ := hmakes₂.relationName?_eq_none
  rw [exchange, Function.comp_apply, Equiv.apply_swap_eq_self (hroot₁.trans hroot₂.symm),
    Equiv.apply_swap_eq_self (hsource₁.trans hsource₂.symm)]

/-! ### Runs on alike hosts -/

/-- If nothing else has the names that are made up, exchanging them leads from the one host to the other. -/
theorem carries_exchange (halike : h₁.Alike h₂) (hmakes₁ : MakesUp h₁ root₁ source₁)
    (hmakes₂ : MakesUp h₂ root₂ source₂)
    (hunknown : ∀ name ∈ [root₁, source₁, root₂, source₂], Unknown s h₁ name) :
    Carries (exchange root₁ source₁ root₂ source₂) s h₁ h₂ := by
  have hσ := renaming_exchange hmakes₁ hmakes₂
  have hkept {names : List String} (hnames : ∀ name ∈ [root₁, source₁, root₂, source₂], name ∉ names) :
      ∀ name ∈ names, exchange root₁ source₁ root₂ source₂ name = name := fun name hname =>
    exchange_of_not_mem fun hmem => hnames name hmem hname
  have hplace {place : Place} (hnames : ∀ name ∈ [root₁, source₁, root₂, source₂], name ∉ place) :
      place.map (exchange root₁ source₁ root₂ source₂) = place :=
    (List.map_congr_left (hkept hnames)).trans (List.map_id' _)
  have hpath {p : FilePath} (hnames : ∀ name ∈ [root₁, source₁, root₂, source₂], name ∉ p.pieces) :
      p.rename (exchange root₁ source₁ root₂ source₂) = p := FilePath.rename_eq_self hσ (hkept hnames)
  refine ⟨hσ, ⟨?_, ?_, ?_, ?_⟩, ?_, ?_, ?_, relationName?_exchange hmakes₁ hmakes₂⟩
  · rw [halike.files]
    exact (FileTree.rename_eq_self fun e he => hkept fun name hname => (hunknown name hname).files e he).symm
  · rw [halike.directory, hplace fun name hname => (hunknown name hname).directory]
  · rw [halike.temporary, hplace fun name hname => (hunknown name hname).temporary]
  · rw [halike.searchPath]
    refine ((List.map_congr_left fun p hp => ?_).trans (List.map_id' _)).symm
    exact hpath fun name hname => (hunknown name hname).searchPath p hp
  · intro p hp
    rw [hpath fun name hname => (hunknown name hname).named p hp, Host.absolute, Host.absolute, halike.directory]
  · exact hpath fun name hname => (hunknown name hname).binary
  · refine hkept fun name hname hown => ?_
    simp only [List.mem_cons, List.not_mem_nil, or_false] at hname
    obtain ⟨hroot₁, hsource₁⟩ := hmakes₁.not_own hown
    obtain ⟨hroot₂, hsource₂⟩ := hmakes₂.not_own hown
    rcases hname with h | h | h | h
    · exact hroot₁ h
    · exact hsource₁ h
    · exact hroot₂ h
    · exact hsource₂ h

/-- On alike hosts, interpreters that do the same with the same program are submitted it in both runs or in
neither, and the runs find the same. -/
theorem within_alongside {program : String} {deeds₁ deeds₂ : Nat → Start → Except IoError Deed}
    (halike : h₁.Alike h₂) (hsound : h₁.files.Sound) (hplain : ∀ name ∈ h₁.temporary, Plain name)
    (hmakes₁ : MakesUp h₁ root₁ source₁) (hmakes₂ : MakesUp h₂ root₂ source₂)
    (hbehaviour₁ : h₁.behaviour = performing deeds₁) (hbehaviour₂ : h₂.behaviour = performing deeds₂)
    (hdeeds : ∀ s₁ s₂ : Start, s₁.Submits program → s₂.Submits program →
      deeds₁ h₁.starts.length s₁ = deeds₂ h₂.starts.length s₂)
    (hunknown : ∀ name ∈ [root₁, source₁, root₂, source₂], Unknown s h₁ name ∧
      ∀ (s₁ : Start) (d : Deed), s₁.Submits program → deeds₁ h₁.starts.length s₁ = .ok d →
        name ∉ d.files.map Prod.fst) :
    Alongside program h₁ h₂ ((Workspace.within s fun w => w.interpretText program).on h₁)
      ((Workspace.within s fun w => w.interpretText program).on h₂) := by
  have hcarries := carries_exchange halike hmakes₁ hmakes₂ fun name hname => (hunknown name hname).1
  have hsource := (hunknown source₁ (by simp)).1
  have hrenamed : MakesUp h₂ (exchange root₁ source₁ root₂ source₂ root₁)
      (exchange root₁ source₁ root₂ source₂ source₁) := by
    rw [exchange_root hmakes₁ hmakes₂, exchange_source hmakes₁ hmakes₂]
    exact hmakes₂
  refine Workspace.within_carried hcarries hplain hsound hmakes₁ hrenamed hsource.files hsource.temporary
    hbehaviour₁ hbehaviour₂ hdeeds fun s₁ d hsubmits hdeed file hfile => ?_
  exact exchange_of_not_mem fun hmem => (hunknown _ hmem).2 s₁ d hsubmits hdeed (List.mem_map_of_mem hfile)

end Interpreter

end PolicyCheck

import PolicyCheck.Proofs.Host.FileTree
import PolicyCheck.Proofs.Interpreter.Run

/-!
# What steps leave as it is

A step preserves a property of hosts if the property holds of the host that it leaves whenever it held
before, whatever the step gives. Steps in a row preserve what each of them preserves. A run writes files,
makes directories, uses up draws, starts a program, and takes out what it has made where nothing stood: a
property that outlasts these is an `Invariant`.
-/

namespace PolicyCheck

namespace Action

variable {ε ε' α β : Type} {I : Host → Prop}

def Preserves (I : Host → Prop) (a : Action ε α) : Prop := ∀ h, I h → I (a.on h).2

theorem preserves_pure (value : α) : (pure value : Action ε α).Preserves I := fun _ hI => hI

theorem preserves_throw (e : ε) : (throw e : Action ε α).Preserves I := fun _ hI => hI

theorem preserves_get : (get : Action ε Host).Preserves I := fun _ hI => hI

theorem preserves_ofExcept (result : Except ε α) : (ofExcept result).Preserves I := fun _ hI => hI

theorem preserves_ask (f : Host → Except ε α) : (ask f).Preserves I := fun _ hI => hI

theorem Preserves.bind {a : Action ε α} {next : α → Action ε β} (ha : a.Preserves I)
    (hnext : ∀ value, (next value).Preserves I) : (a >>= next).Preserves I := by
  intro h hI
  have hleft := ha h hI
  rcases hon : a.on h with ⟨e | value, left⟩
  · rw [hon] at hleft
    rw [on_bind_of_error hon]
    exact hleft
  · rw [hon] at hleft
    rw [on_bind_of_ok hon]
    exact hnext value left hleft

theorem Preserves.map {a : Action ε α} (ha : a.Preserves I) (f : α → β) : (f <$> a).Preserves I := by
  rw [map_eq_pure_bind]
  exact ha.bind fun value => preserves_pure (f value)

theorem Preserves.mapError {a : Action ε α} (ha : a.Preserves I) (f : ε → ε') : (a.mapError f).Preserves I := ha

theorem Preserves.attempt {a : Action ε α} (ha : a.Preserves I) :
    (a.attempt : Action ε' (Except ε α)).Preserves I := ha

theorem Preserves.mapM {f : α → Action ε β} (hf : ∀ a, (f a).Preserves I) (as : List α) :
    (as.mapM f).Preserves I := by
  induction as with
  | nil => exact preserves_pure []
  | cons a as ih =>
    rw [List.mapM_cons]
    exact (hf a).bind fun _ => ih.bind fun _ => preserves_pure _

theorem Preserves.forM {f : α → Action ε Unit} (hf : ∀ a, (f a).Preserves I) (as : List α) :
    (as.forM f).Preserves I := by
  induction as with
  | nil => exact preserves_pure ()
  | cons a as ih => exact (hf a).bind fun _ => ih

end Action

namespace Host

open PolicyCheck.Action

/-- The property outlasts what a run does. A place where nothing stood may be taken out again, with whatever
has come to lie there since. -/
structure Invariant (I : Host → Prop) where
  spared : Place → Prop
  drawn {h : Host} (drawn : Nat) (hI : I h) : I { h with drawn }
  complained {h : Host} (complaints : String) (hI : I h) : I { h with complaints }
  grown {h : Host} {files : FileTree} (hfiles : files.Extends h.files) (hI : I h) : I { h with files }
  started {h : Host} (s : Start) {files : FileTree}
    (hending : files = h.files ∨ ∃ n status stderr, h.behaviour n s = .exited status stderr files)
    (hfiles : s.files = h.files) (hI : I h) : I (h.startedWith s files)
  fresh {h : Host} {directory : Place} {name : String} (hname : name ∉ h.files.namesIn directory) (hI : I h) :
    spared (directory ++ [name])
  pruned {h : Host} {place : Place} (names : List String) (hplace : spared place) (hI : I h) :
    I (h.pruned (place ++ names))

namespace Invariant

variable {I : Host → Prop}

theorem preserves_change (hinv : Invariant I) {f : Host → Except IoError FileTree}
    (hf : ∀ h files, f h = .ok files → files.Extends h.files) : (change f).Preserves I := by
  intro h hI
  rw [change, on_bind, on_ask]
  cases hfiles : f h with
  | error cause => exact hI
  | ok files => exact hinv.grown (hf h files hfiles) hI

theorem preserves_write (hinv : Invariant I) (p : FilePath) (text : String) : (write p text).Preserves I :=
  hinv.preserves_change fun _ _ hwrite => FileTree.extends_write hwrite

theorem preserves_makeDirectory (hinv : Invariant I) (p : FilePath) : (makeDirectory p).Preserves I := by
  refine hinv.preserves_change fun h files hmake => ?_
  obtain ⟨target, -, hvacant, rfl⟩ := FileTree.makeDirectory_eq_ok_iff.1 hmake
  refine FileTree.extends_put (FileTree.ne_nil_of_entry?_eq_none hvacant) ?_
  rw [FileTree.isDirectoryAt, hvacant]
  rfl

theorem preserves_start (hinv : Invariant I) (program : FilePath) (arguments : List String)
    (directory : Place) : (start program arguments directory).Preserves I := by
  intro h hI
  rw [on_start]
  cases h.startable program arguments directory with
  | error cause => exact hI
  | ok _ =>
    dsimp only
    cases hending : h.behaviour h.starts.length ⟨program, arguments, directory, h.files⟩ with
    | refused cause => exact hinv.started _ (.inl rfl) rfl hI
    | exited status stderr files => exact hinv.started _ (.inr ⟨_, _, _, hending⟩) rfl hI

theorem preserves_complain {ε : Type} (hinv : Invariant I) (text : String) :
    (liftM (complain text) : Action ε Unit).Preserves I := fun _ hI => hinv.complained _ hI

end Invariant

end Host

end PolicyCheck

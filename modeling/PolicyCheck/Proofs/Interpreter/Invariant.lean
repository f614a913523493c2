import PolicyCheck.Proofs.Host.Invariant
import PolicyCheck.Proofs.Interpreter.Workspace

/-!
# What runs leave as it is

Each step of a run preserves an invariant, and so does the run, because it takes out no more than its
private directory, which it has made where nothing stood.
-/

namespace PolicyCheck.Interpreter

open PolicyCheck.Action Host

variable {I : Host → Prop}

theorem preserves_freshIn (hinv : Invariant I) (directory : Place) (front back : String) :
    (freshIn directory front back).Preserves I := by
  intro h hI
  rw [on_freshIn]
  cases freshName? h.draws (h.files.namesIn directory) front back maxTries h.drawn with
  | none => exact hI
  | some found => exact hinv.drawn found.2 hI

namespace Workspace

theorem preserves_layDir (hinv : Invariant I) (root : Place) (named? : Option FilePath) (name : String) :
    (layDir root named? name).Preserves I := by
  cases named? with
  | none => exact (hinv.preserves_makeDirectory _).bind fun _ => preserves_pure _
  | some p => exact preserves_ask _

theorem preserves_findLibrary (root : Place) (named? : Option FilePath) :
    (findLibrary root named?).Preserves I := by
  cases named? with
  | none => exact preserves_pure _
  | some p => exact preserves_ask _

theorem preserves_layOut (hinv : Invariant I) (root : Place) (s : Settings) : (layOut root s).Preserves I := by
  rw [layOut_eq]
  refine Preserves.bind ?_ fun _ => ?_
  · split
    · exact preserves_pure none
    · exact (preserves_layDir hinv _ _ _).map some
  · exact (preserves_layDir hinv _ _ _).bind fun _ => (preserves_layDir hinv _ _ _).bind fun _ =>
      (preserves_findLibrary _ _).bind fun _ => preserves_pure _

theorem preserves_makeRoot (hinv : Invariant I) : makeRoot.Preserves I :=
  preserves_get.bind fun _ => (preserves_freshIn hinv _ _ _).bind fun _ =>
    (hinv.preserves_makeDirectory _).bind fun _ => preserves_pure _

theorem preserves_stageInclude (hinv : Invariant I) (w : Workspace) (name text : String) :
    (w.stageInclude name text).Preserves I :=
  (hinv.preserves_write _ _).bind fun _ => preserves_pure _

theorem preserves_writeSource (hinv : Invariant I) (w : Workspace) (text : String) :
    (w.writeSource text).Preserves I :=
  (preserves_freshIn hinv _ _ _).bind fun _ => (hinv.preserves_write _ _).bind fun _ => preserves_pure _

theorem preserves_collect (hinv : Invariant I) (w : Workspace) (source : FilePath) :
    (w.collect source).Preserves I := by
  refine Preserves.bind ?_ fun _ => (preserves_ask _).mapError _
  refine ((hinv.preserves_start _ _ _).mapError _).bind fun ending => ?_
  dsimp only
  split
  · exact preserves_throw _
  · exact preserves_pure ()

theorem preserves_interpretText (hinv : Invariant I) {w : Workspace} (hroot : hinv.spared w.root)
    (text : String) : (w.interpretText text).Preserves I := by
  intro h hI
  have hwritten := preserves_writeSource hinv w text h hI
  rw [on_interpretText]
  rcases hwrite : (w.writeSource text).on h with ⟨cause | source, written⟩
  · rw [hwrite] at hwritten
    exact hwritten
  · rw [hwrite] at hwritten
    exact hinv.pruned _ hroot (preserves_collect hinv w source written hwritten)

theorem spared_of_makeRoot (hinv : Invariant I) {h h' : Host} {root : Place} (hI : I h)
    (hmake : makeRoot.on h = (.ok root, h')) : hinv.spared root := by
  rw [makeRoot, on_bind_of_ok (on_get h)] at hmake
  obtain ⟨name, h₁, hfresh, hmake⟩ := on_bind_eq_ok.1 hmake
  obtain ⟨n, -, hfree, -⟩ := on_freshIn_eq_ok hfresh
  obtain ⟨⟨⟩, h₂, -, hmake⟩ := on_bind_eq_ok.1 hmake
  obtain rfl := Except.ok.inj (Prod.mk.inj hmake).1
  exact hinv.fresh hfree hI

theorem preserves_within {α : Type} (hinv : Invariant I) {use : Workspace → Action Error α}
    (huse : ∀ w, hinv.spared w.root → (use w).Preserves I) (s : Settings) : (within s use).Preserves I := by
  intro h hI
  have hrooted := preserves_makeRoot hinv h hI
  have hpruned {place : Place} {left : Host} (hplace : hinv.spared place) (hleft : I left) :
      I (left.pruned place) := by
    have h := hinv.pruned [] hplace hleft
    rwa [List.append_nil] at h
  rw [on_within, make, on_bind]
  rcases hmake : makeRoot.on h with ⟨cause | root, made⟩
  · rw [hmake] at hrooted
    exact hrooted
  · have hroot := spared_of_makeRoot hinv hI hmake
    rw [hmake] at hrooted
    have hlaid := preserves_layOut hinv root s made hrooted
    dsimp only
    rw [on_bind, on_attempt]
    rcases hlay : (layOut root s).on made with ⟨cause | w, laid⟩
    · rw [hlay] at hlaid
      exact hpruned hroot hlaid
    · rw [hlay] at hlaid
      rw [layOut_eq] at hlay
      obtain ⟨outputDir?, h₁, -, hrest⟩ := on_bind_eq_ok.1 hlay
      obtain ⟨rfl, -⟩ := on_layRest_eq_ok hrest
      exact hpruned hroot (huse w hroot laid hlaid)

end Workspace

end PolicyCheck.Interpreter

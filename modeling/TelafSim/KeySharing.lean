import TelafSim.Trace

/-!
# The apps that a key is shared with

`taf_pa_ks_ShareKey`, `taf_pa_ks_CancelKeySharing` and `taf_pa_ks_GetSharedAppList` of the key store
stub: an array of twelve entries and `appNum`, an 8-bit number that starts at 255 for an empty list
and is the last index otherwise. A cancel takes the entry at index 0 out, whichever app it is called
for, and what was the last entry stays behind the new one.

The array is the first part of a memory that goes on behind it. Two things are recorded for the
statements only: the apps shared and not yet cancelled, and the indexes of `appInfo` that were
written, or that memmove read or wrote.
-/

namespace TelafSim.KeyStore

def maxSharedApps : ℕ := 12

/-- `taf_pa_ks_SharedApp_t`; the name fits its buffer. -/
structure SharedApp where
  keyCap : ℕ
  appCap : ℕ
  appName : String
  deriving DecidableEq, Repr

namespace SharedApp

def zero : SharedApp := ⟨0, 0, ""⟩

end SharedApp

/-- The static variables; `appNum` is a `uint8_t`. -/
structure Store where
  appInfo : ℕ → SharedApp
  appNum : ℕ

namespace Store

def decr (appNum : ℕ) : ℕ := (appNum + 255) % 256

def memset (appInfo : ℕ → SharedApp) : ℕ → SharedApp :=
  fun i => if i < maxSharedApps then .zero else appInfo i

def memmove (count : ℕ) (appInfo : ℕ → SharedApp) : ℕ → SharedApp :=
  fun i => if i < count then appInfo (i + 1) else appInfo i

def shareIndex (s : Store) : ℕ :=
  if maxSharedApps ≤ s.appNum then 0 else (s.appNum + 1) % 256

def shareKey (app : SharedApp) (s : Store) : Store where
  appInfo := Function.update s.appInfo s.shareIndex app
  appNum := s.shareIndex

def cancelKeySharing (_appName : String) (s : Store) : Store :=
  if s.appNum = 0 then ⟨memset s.appInfo, decr s.appNum⟩
  else ⟨memmove s.appNum s.appInfo, decr s.appNum⟩

/-- The indexes that the call reads or writes with memmove. -/
def movedIndexes (s : Store) : List ℕ :=
  if s.appNum = 0 then [] else List.range (s.appNum + 1)

def getSharedAppList (s : Store) : List SharedApp := (List.range maxSharedApps).map s.appInfo

end Store

structure KeySharing where
  store : Store
  shared : List SharedApp
  touched : List ℕ

inductive Call
  | shareKey (app : SharedApp)
  | cancelKeySharing (appName : String)
  deriving DecidableEq, Repr

namespace KeySharing

/-- The list is static, hence cleared; what lies behind it is arbitrary. -/
def initial (behind : ℕ → SharedApp) : KeySharing where
  store := ⟨Store.memset behind, 255⟩
  shared := []
  touched := []

def step (h : KeySharing) : Call → Option KeySharing
  | .shareKey app => some {
      store := h.store.shareKey app
      shared := h.shared ++ [app]
      touched := h.touched ++ [h.store.shareIndex] }
  | .cancelKeySharing appName => some {
      store := h.store.cancelKeySharing appName
      shared := h.shared.eraseP (fun app => app.appName = appName)
      touched := h.touched ++ h.store.movedIndexes }

/-- The list stays in bounds, and the entries of the returned list that are not cleared are those
of the apps shared and not yet cancelled, as a set: how often one is returned is left open. -/
structure Faithful (h : KeySharing) : Prop where
  inBounds : ∀ i ∈ h.touched, i < maxSharedApps
  exact : h.shared.length ≤ maxSharedApps → ∀ app, app ≠ .zero →
    (app ∈ h.store.getSharedAppList ↔ app ∈ h.shared)

/-- The entry at index 0 is not also behind the last entry, where an earlier cancel has left it,
unless it is cleared or is shared a second time. -/
def Clean (s : Store) : Prop :=
  ∀ i < maxSharedApps, s.appNum < i → s.appInfo i = s.appInfo 0 →
    s.appInfo 0 = .zero ∨ ∃ j < maxSharedApps, 0 < j ∧ j ≤ s.appNum ∧ s.appInfo j = s.appInfo 0

instance (s : Store) : Decidable (Clean s) :=
  inferInstanceAs (Decidable (∀ i < maxSharedApps, s.appNum < i → s.appInfo i = s.appInfo 0 →
    s.appInfo 0 = .zero ∨ ∃ j < maxSharedApps, 0 < j ∧ j ≤ s.appNum ∧ s.appInfo j = s.appInfo 0))

/-- A share finds room. A cancel finds a list that is not empty and names the app at index 0, and no
copy of its entry is left over, unless it is the only app. -/
def heeds (h : KeySharing) : Call → Prop
  | .shareKey _ => h.store.appNum + 1 ≠ maxSharedApps
  | .cancelKeySharing appName =>
    h.store.appNum < maxSharedApps ∧ (h.store.appInfo 0).appName = appName ∧
      (h.store.appNum = 0 ∨ Clean h.store)

instance (h : KeySharing) : ∀ c, Decidable (h.heeds c)
  | .shareKey _ => inferInstanceAs (Decidable (h.store.appNum + 1 ≠ maxSharedApps))
  | .cancelKeySharing appName =>
    inferInstanceAs (Decidable (h.store.appNum < maxSharedApps ∧
      (h.store.appInfo 0).appName = appName ∧ (h.store.appNum = 0 ∨ Clean h.store)))

/-- The apps shared are the first entries in their order, and no other entry is of another app. -/
structure Mirrors (h : KeySharing) : Prop where
  inBounds : ∀ i ∈ h.touched, i < maxSharedApps
  fits : h.shared.length ≤ maxSharedApps
  appNum : h.store.appNum = Store.decr h.shared.length
  shared : h.shared = (List.range h.shared.length).map h.store.appInfo
  leftover : ∀ i < maxSharedApps, h.store.appInfo i ≠ .zero → h.store.appInfo i ∈ h.shared

variable {h : KeySharing} {app : SharedApp} {appName : String}

theorem mirrors_initial (behind : ℕ → SharedApp) : (initial behind).Mirrors := by
  refine ⟨by simp [initial], by simp [initial], rfl, rfl, ?_⟩
  intro i hi hne
  exact absurd (if_pos hi) hne

theorem Mirrors.faithful (hm : h.Mirrors) : h.Faithful := by
  refine ⟨hm.inBounds, ?_⟩
  intro _ app hne
  unfold Store.getSharedAppList
  constructor
  · intro hmem
    obtain ⟨i, hi, rfl⟩ := List.mem_map.mp hmem
    exact hm.leftover i (List.mem_range.mp hi) hne
  · intro hmem
    rw [hm.shared] at hmem
    obtain ⟨i, hi, rfl⟩ := List.mem_map.mp hmem
    have hlt := (List.mem_range.mp hi).trans_le hm.fits
    exact List.mem_map.mpr ⟨i, List.mem_range.mpr hlt, rfl⟩

/-- With room in the list the next entry is written behind the last one. -/
theorem Mirrors.shareIndex (hm : h.Mirrors) (hroom : h.store.appNum + 1 ≠ maxSharedApps) :
    h.store.shareIndex = h.shared.length ∧ h.shared.length < maxSharedApps := by
  have hnum := hm.appNum
  have hfits := hm.fits
  unfold Store.shareIndex
  unfold Store.decr at hnum
  unfold maxSharedApps at *
  split_ifs with hge <;> omega

theorem Mirrors.shareKey (hm : h.Mirrors) (hroom : h.store.appNum + 1 ≠ maxSharedApps)
    {h' : KeySharing} (hstep : h.step (.shareKey app) = some h') : h'.Mirrors := by
  obtain ⟨hindex, hlt⟩ := hm.shareIndex hroom
  obtain rfl := Option.some.inj hstep
  have hlength : (h.shared ++ [app]).length = h.shared.length + 1 := List.length_append
  refine ⟨?_, ?_, ?_, ?_, ?_⟩
  · intro i hi
    rcases List.mem_append.mp hi with hi | hi
    · exact hm.inBounds i hi
    · rw [List.mem_singleton.mp hi, hindex]
      exact hlt
  · rw [hlength]
    exact hlt
  · simp only [Store.shareKey, hindex, hlength, Store.decr]
    unfold maxSharedApps at hlt
    omega
  · have hold : ∀ i ∈ List.range h.shared.length,
        h.store.appInfo i = Function.update h.store.appInfo h.shared.length app i := by
      intro i hi
      rw [Function.update_of_ne (List.mem_range.mp hi).ne]
    simp only [Store.shareKey, hindex, hlength, List.range_succ, List.map_append, List.map_cons,
      List.map_nil, Function.update_self]
    rw [← List.map_congr_left hold, ← hm.shared]
  · intro i hi hne
    simp only [Store.shareKey, hindex] at hne ⊢
    by_cases heq : i = h.shared.length
    · rw [heq, Function.update_self]
      exact List.mem_append_right _ List.mem_cons_self
    · rw [Function.update_of_ne heq] at hne ⊢
      exact List.mem_append_left _ (hm.leftover i hi hne)

theorem Mirrors.shared_eq_cons (hm : h.Mirrors) (hlt : h.store.appNum < maxSharedApps) :
    h.shared.length = h.store.appNum + 1 ∧ h.shared =
      h.store.appInfo 0 :: (List.range h.store.appNum).map (fun i => h.store.appInfo (i + 1)) := by
  have hnum := hm.appNum
  have hfits := hm.fits
  have hlength : h.shared.length = h.store.appNum + 1 := by
    unfold Store.decr at hnum
    unfold maxSharedApps at *
    omega
  refine ⟨hlength, ?_⟩
  rw [hm.shared, hlength, List.range_succ_eq_map, List.map_cons, List.map_map]
  rfl

theorem map_memmove (n : ℕ) (appInfo : ℕ → SharedApp) :
    (List.range n).map (Store.memmove n appInfo) =
      (List.range n).map (fun i => appInfo (i + 1)) := by
  refine List.map_congr_left ?_
  intro i hi
  exact if_pos (List.mem_range.mp hi)

theorem Mirrors.cancelOnly (hm : h.Mirrors) (hzero : h.store.appNum = 0)
    (hname : (h.store.appInfo 0).appName = appName) {h' : KeySharing}
    (hstep : h.step (.cancelKeySharing appName) = some h') : h'.Mirrors := by
  obtain ⟨-, hshared⟩ := hm.shared_eq_cons (hzero ▸ (by decide : 0 < maxSharedApps))
  obtain rfl := Option.some.inj hstep
  have hnil : h.shared.eraseP (fun app => app.appName = appName) = [] := by
    rw [hshared, hzero, List.eraseP_cons_of_pos (by simpa using hname)]
    rfl
  refine ⟨?_, ?_, ?_, ?_, ?_⟩
  · intro i hi
    rw [Store.movedIndexes, if_pos hzero, List.append_nil] at hi
    exact hm.inBounds i hi
  · rw [hnil]
    exact Nat.zero_le _
  · rw [hnil, Store.cancelKeySharing, if_pos hzero, hzero]
    rfl
  · rw [hnil]
    rfl
  · intro i hi hne
    rw [Store.cancelKeySharing, if_pos hzero] at hne
    exact absurd (if_pos hi) hne

theorem Mirrors.cancelFirst (hm : h.Mirrors) (hpos : h.store.appNum ≠ 0)
    (hlt : h.store.appNum < maxSharedApps) (hname : (h.store.appInfo 0).appName = appName)
    (hclean : Clean h.store) {h' : KeySharing}
    (hstep : h.step (.cancelKeySharing appName) = some h') : h'.Mirrors := by
  obtain ⟨hlength, hshared⟩ := hm.shared_eq_cons hlt
  obtain rfl := Option.some.inj hstep
  have hrest : h.shared.eraseP (fun app => app.appName = appName) =
      (List.range h.store.appNum).map (fun i => h.store.appInfo (i + 1)) := by
    rw [hshared, List.eraseP_cons_of_pos (by simpa using hname)]
  have hmem : ∀ j, 0 < j → j ≤ h.store.appNum →
      h.store.appInfo j ∈ (List.range h.store.appNum).map (fun i => h.store.appInfo (i + 1)) := by
    intro j hj hle
    refine List.mem_map.mpr ⟨j - 1, List.mem_range.mpr (by omega), ?_⟩
    rw [Nat.sub_add_cancel hj]
  refine ⟨?_, ?_, ?_, ?_, ?_⟩
  · intro i hi
    rw [Store.movedIndexes, if_neg hpos] at hi
    rcases List.mem_append.mp hi with hi | hi
    · exact hm.inBounds i hi
    · have hi := List.mem_range.mp hi
      omega
  · rw [hrest, List.length_map, List.length_range]
    exact hlt.le
  · rw [hrest, List.length_map, List.length_range, Store.cancelKeySharing, if_neg hpos]
  · rw [hrest, List.length_map, List.length_range, Store.cancelKeySharing, if_neg hpos, map_memmove]
  · intro i hi hne
    rw [hrest]
    rw [Store.cancelKeySharing, if_neg hpos] at hne ⊢
    simp only [Store.memmove] at hne ⊢
    by_cases hmoved : i < h.store.appNum
    · rw [if_pos hmoved]
      exact hmem (i + 1) (by omega) (by omega)
    · rw [if_neg hmoved] at hne ⊢
      by_cases hlast : i = h.store.appNum
      · exact hmem i (by omega) hlast.le
      · -- what is behind the last entry behind the last one is of an app that is still shared
        have hold := hm.leftover i hi hne
        rw [hshared, List.mem_cons] at hold
        rcases hold with heq | hold
        · rcases hclean i hi (by omega) heq with hzero | ⟨j, -, hj, hle, hsame⟩
          · exact absurd (heq.trans hzero) hne
          · rw [heq, ← hsame]
            exact hmem j hj hle
        · exact hold

theorem step_kept {h' : KeySharing} {c : Call} (hm : h.Mirrors) (hheeds : h.heeds c)
    (hstep : h.step c = some h') : h'.Mirrors := by
  cases c with
  | shareKey app => exact hm.shareKey hheeds hstep
  | cancelKeySharing appName =>
    obtain ⟨hlt, hname, hclean⟩ := hheeds
    by_cases hzero : h.store.appNum = 0
    · exact hm.cancelOnly hzero hname hstep
    · exact hm.cancelFirst hzero hlt hname (hclean.resolve_left hzero) hstep

/-- Sharing and cancelling in the order of sharing, with no copies left over, keep the list in
bounds and faithful in every state of a run. -/
theorem faithful_run (behind : ℕ → SharedApp) (l : List Call)
    (hok : Trace.AllSteps step heeds (initial behind) l) :
    Trace.Always step Faithful (initial behind) l := by
  refine Trace.always_of_allSteps (fun h hm => hm.faithful) ?_ hok (mirrors_initial behind)
  intro h c h' hm hheeds hstep
  exact step_kept hm hheeds hstep

def signer (appName : String) : SharedApp := ⟨1, 1, appName⟩

theorem faithful_queue : Trace.Always step Faithful (initial (fun _ => .zero))
    [.shareKey (signer "a"), .shareKey (signer "b"), .cancelKeySharing "a",
      .shareKey (signer "c"), .cancelKeySharing "b", .cancelKeySharing "c"] :=
  faithful_run _ _ (by decide +kernel)

/-- A cancel of an empty list, a cancel out of order, a cancel of an app that an earlier cancel has
left behind, and a thirteenth share. -/
theorem unfaithful_calls :
    (∃ h, Trace.run step (initial (fun _ => .zero)) [.cancelKeySharing "a"] = some h ∧
      ¬ h.Faithful) ∧
    (∃ h, Trace.run step (initial (fun _ => .zero)) [.shareKey (signer "a"), .shareKey (signer "b"),
      .cancelKeySharing "b"] = some h ∧ ¬ h.Faithful) ∧
    (∃ h, Trace.run step (initial (fun _ => .zero)) [.shareKey (signer "a"), .shareKey (signer "b"),
      .shareKey (signer "c"), .cancelKeySharing "a", .cancelKeySharing "b",
      .shareKey (signer "d"), .cancelKeySharing "c"] = some h ∧ ¬ h.Faithful) ∧
    ∃ h, Trace.run step (initial (fun _ => .zero)) (List.replicate 13 (.shareKey (signer "a"))) =
      some h ∧ ¬ h.Faithful := by
  refine ⟨⟨_, rfl, ?_⟩, ⟨_, rfl, ?_⟩, ⟨_, rfl, ?_⟩, ⟨_, rfl, ?_⟩⟩
  · intro hf
    exact absurd (hf.inBounds 255 (by decide +kernel)) (by decide)
  · intro hf
    have hiff := hf.exact (by decide +kernel) (signer "b") (by decide +kernel)
    exact absurd (hiff.mp (by decide +kernel)) (by decide +kernel)
  · intro hf
    have hiff := hf.exact (by decide +kernel) (signer "c") (by decide +kernel)
    exact absurd (hiff.mp (by decide +kernel)) (by decide +kernel)
  · intro hf
    exact absurd (hf.inBounds 12 (by decide +kernel)) (by decide)

end KeySharing

end TelafSim.KeyStore

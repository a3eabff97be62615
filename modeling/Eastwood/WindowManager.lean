import Eastwood.Runs
import Mathlib.Logic.Function.Basic

/-!
# The window manager

The windows of the program are widgets of seven kinds, made when they are first
shown and hidden, not deleted, when another one is. A pointer for each kind
leads to its widget until that is deleted, which happens some time after it was
closed or the manager was cleaned up, and a list has all widgets, so that the
others can be hidden before one is shown.

What a user sees of this is a screen: at most one window, with its own button
marked in its navigation bar, and for each kind what its widget was made with.
The manager is such a screen (`screen_of_ops`). A widget is not made again
while there is one, though: what it is shown with the second time, it does not
take. So a second device registration shows the code and the name of the first.
And the others are hidden before one is made, which may throw, as the lists of
files do when they cannot be read: then there is nothing on the screen.
-/

variable {D : Type}

/-- The kinds of windows. -/
inductive Window where
  | received | sent | sendFile | settings | login | register | deviceRegister
  deriving DecidableEq

namespace Window

/-- All kinds, in the order in which they are cleaned up. -/
def all : List Window := [received, sent, sendFile, settings, login, register, deviceRegister]

/-- What `windowShown` is emitted with. -/
def buttonName : Window → String
  | received => "receivedButton"
  | sent => "sentButton"
  | sendFile => "sendFileButton"
  | settings => "settingsButton"
  | login => "loginButton"
  | register => "registerButton"
  | deviceRegister => "deviceRegisterButton"

theorem mem_all (w : Window) : w ∈ all := by
  cases w <;> decide

end Window

/-- **A widget**: what it was made with, whether it is visible, whether it is
to be deleted, and which button its navigation bar marks. -/
structure Widget (D : Type) where
  kind : Window
  madeWith : Option D
  visible : Bool
  deleting : Bool
  activeButton : String

/-- **`WindowManager`**, with the widgets there are: the pointers, the list,
and a name no widget has had. -/
structure WindowManager (D : Type) where
  widgets : ℕ → Option (Widget D)
  pointer : Window → Option ℕ
  windows : List ℕ
  next : ℕ

namespace WindowManager

/-- No window was shown yet. -/
def start : WindowManager D := ⟨fun _ => none, fun _ => none, [], 0⟩

/-- Where a `QPointer` leads: nowhere, once its widget is deleted. -/
def target (m : WindowManager D) (w : Window) : Option ℕ :=
  (m.pointer w).filter fun id => (m.widgets id).isSome

/-- A widget is changed, if it is there. -/
def changeWidget (id : ℕ) (f : Widget D → Widget D) (m : WindowManager D) : WindowManager D :=
  { m with widgets := Function.update m.widgets id ((m.widgets id).map f) }

/-- `hide`. -/
def hide (id : ℕ) : WindowManager D → WindowManager D :=
  changeWidget id fun x => { x with visible := false }

/-- All windows are hidden but one. -/
def hideOthers (windowPtr : Option ℕ) (m : WindowManager D) : WindowManager D :=
  m.windows.foldl (fun m id =>
    if (m.widgets id).isSome && windowPtr ≠ some id then m.hide id else m) m

/-- A widget is made. -/
def make (w : Window) (args : Option D) (m : WindowManager D) : WindowManager D where
  widgets := Function.update m.widgets m.next
    (some ⟨w, args, false, false, Window.received.buttonName⟩)
  pointer := Function.update m.pointer w (some m.next)
  windows := m.windows ++ [m.next]
  next := m.next + 1

/-- `show`, and what every navigation bar does at `windowShown`. -/
def showAndEmit (w : Window) (id : ℕ) (m : WindowManager D) : WindowManager D :=
  let m := m.changeWidget id fun x => { x with visible := true }
  { m with
    widgets := fun id => (m.widgets id).map fun x => { x with activeButton := w.buttonName } }

/-- **`WindowManager::showWindow`**, and what it emits. A widget that is made
may throw before it is. -/
def showWindow (w : Window) (args : Option D) (throws : Bool) (m : WindowManager D) :
    List String × WindowManager D :=
  match m.target w with
  | some id =>
    if (m.widgets id).any (·.visible) then ([], m)
    else ([w.buttonName], (m.hideOthers (some id)).showAndEmit w id)
  | none =>
    let m := m.hideOthers none
    if throws then ([], m)
    else
      let m := m.make w args
      ([w.buttonName], m.showAndEmit w (m.next - 1))

/-- `deleteWindow`. -/
def deleteWindow (m : WindowManager D) (w : Window) : WindowManager D :=
  match m.target w with
  | none => m
  | some id =>
    let m := m.changeWidget id fun x => { x with visible := false, deleting := true }
    { m with pointer := Function.update m.pointer w none }

/-- **`WindowManager::cleanup`.** -/
def cleanup (m : WindowManager D) : WindowManager D :=
  { Window.all.foldl deleteWindow m with windows := [] }

end WindowManager

/-- **What happens to the windows**: one is shown, with what `showDeviceRegister`
is given, or closed, which is to delete it, the event loop comes to delete what
is to be deleted, or a user logs out. The widget of a window that is shown may
throw when it is made. -/
inductive WindowOp (D : Type) where
  | show (w : Window) (args : Option D) (throws : Bool)
  | close (w : Window)
  | deleteLater
  | restart (throws : Bool)

namespace WindowManager

/-- A widget is closed that has `WA_DeleteOnClose`. -/
def close (w : Window) (m : WindowManager D) : WindowManager D :=
  match m.target w with
  | none => m
  | some id => m.changeWidget id fun x => { x with visible := false, deleting := true }

/-- **One step**, and what it emits. -/
def step : WindowOp D → WindowManager D → List String × WindowManager D
  | .show w args throws, m => m.showWindow w args throws
  | .close w, m => ([], m.close w)
  | .deleteLater, m => ([], { m with widgets := fun id => (m.widgets id).filter (!·.deleting) })
  | .restart throws, m => m.cleanup.showWindow .login none throws

end WindowManager

/-! ## The screen -/

/-- **What a user sees**: the window that is shown, and for each kind what its
window was made with, if there is one, and whether it was closed. -/
structure Screen (D : Type) where
  visible : Option Window
  kept : Window → Option (Option D × Bool)

namespace Screen

/-- Nothing is shown yet. -/
def start : Screen D := ⟨none, fun _ => none⟩

/-- A window is shown, as it was made. One that cannot be made leaves nothing
to see. -/
def showWindow (w : Window) (args : Option D) (throws : Bool) (s : Screen D) :
    List String × Screen D :=
  if s.visible = some w then ([], s)
  else if (s.kept w).isNone && throws then ([], ⟨none, s.kept⟩)
  else ([w.buttonName], ⟨some w, Function.update s.kept w ((s.kept w).or (some (args, false)))⟩)

/-- **One step.** -/
def step : WindowOp D → Screen D → List String × Screen D
  | .show w args throws, s => s.showWindow w args throws
  | .close w, s =>
    ([], ⟨if s.visible = some w then none else s.visible,
      Function.update s.kept w ((s.kept w).map fun k => (k.1, true))⟩)
  | .deleteLater, s =>
    ([], ⟨s.visible.filter fun w => (s.kept w).any (!·.2), fun w => (s.kept w).filter (!·.2)⟩)
  | .restart throws, _ => showWindow .login none throws start

end Screen

/-! ## The manager is a screen -/

namespace WindowManager

/-- **What a screen shows of a manager**: each pointer leads to a widget of its
kind that is in the list, and what is visible is what a pointer leads to. -/
structure Shows (m : WindowManager D) (s : Screen D) : Prop where
  kind : ∀ {w id}, m.target w = some id → ∃ x, m.widgets id = some x ∧ x.kind = w
  listed : ∀ {w id}, m.target w = some id → id ∈ m.windows
  kept : ∀ w, s.kept w = ((m.target w).bind m.widgets).map fun x => (x.madeWith, x.deleting)
  visible : ∀ {id x}, m.widgets id = some x → x.visible = true →
    m.target x.kind = some id ∧ s.visible = some x.kind ∧ x.activeButton = x.kind.buttonName
  shown : ∀ {w}, s.visible = some w →
    ∃ id x, m.target w = some id ∧ m.widgets id = some x ∧ x.visible = true
  fresh : ∀ {id}, m.next ≤ id → m.widgets id = none
  old : ∀ {w id}, m.pointer w = some id → id < m.next

/-- Widgets that are changed, each in its way. -/
def mapWidgets (g : ℕ → Widget D → Widget D) (m : WindowManager D) : WindowManager D :=
  { m with widgets := fun id => (m.widgets id).map (g id) }

variable {m : WindowManager D} {s : Screen D} {w : Window} {id : ℕ} {x : Widget D}
  {g : ℕ → Widget D → Widget D}

theorem target_eq_some :
    m.target w = some id ↔ m.pointer w = some id ∧ (m.widgets id).isSome = true := by
  rw [target, Option.filter_eq_some_iff]

@[simp] theorem target_mapWidgets : (m.mapWidgets g).target w = m.target w := by
  unfold target mapWidgets
  refine congrArg (fun p => Option.filter p (m.pointer w)) (funext fun id => ?_)
  rw [Option.isSome_map]

/-- Widgets that are changed alike. -/
theorem mapWidgets_congr {g' : ℕ → Widget D → Widget D}
    (h : ∀ id x, m.widgets id = some x → g id x = g' id x) : m.mapWidgets g = m.mapWidgets g' := by
  unfold mapWidgets
  congr 1
  funext id
  exact Option.map_congr (h id)

theorem mapWidgets_id : m.mapWidgets (fun _ x => x) = m := by
  unfold mapWidgets
  simp only [Option.map_id']

theorem mapWidgets_mapWidgets (g g' : ℕ → Widget D → Widget D) :
    (m.mapWidgets g).mapWidgets g' = m.mapWidgets fun id x => g' id (g id x) := by
  unfold mapWidgets
  congr 1
  funext id
  rw [Option.map_map]
  rfl

/-! ### What the calls change -/

theorem changeWidget_eq (id : ℕ) (f : Widget D → Widget D) :
    m.changeWidget id f = m.mapWidgets fun id' x => if id' = id then f x else x := by
  unfold changeWidget mapWidgets
  congr 1
  funext id'
  by_cases hid : id' = id
  · simp only [hid, Function.update_self, if_true]
  · simp only [hid, Function.update_of_ne hid, if_false, Option.map_id']

theorem hide_eq (id : ℕ) :
    m.hide id = m.mapWidgets fun id' x => if id' = id then { x with visible := false } else x :=
  changeWidget_eq id _

/-- **The loop hides what is in the list**, but for one. -/
theorem hideOthers_eq (windowPtr : Option ℕ) : m.hideOthers windowPtr = m.mapWidgets fun id x =>
    if id ∈ m.windows ∧ windowPtr ≠ some id then { x with visible := false } else x := by
  have hloop : ∀ (l : List ℕ) (m : WindowManager D),
      l.foldl (fun m id =>
        if (m.widgets id).isSome && windowPtr ≠ some id then m.hide id else m) m
        = m.mapWidgets fun id x =>
          if id ∈ l ∧ windowPtr ≠ some id then { x with visible := false } else x := by
    intro l
    induction l with
    | nil =>
      intro m
      rw [List.foldl_nil]
      refine mapWidgets_id.symm.trans (mapWidgets_congr fun id x _ => (if_neg ?_).symm)
      exact fun hid => List.not_mem_nil hid.1
    | cons id l ih =>
      intro m
      have hfirst : (if (m.widgets id).isSome && windowPtr ≠ some id then m.hide id else m)
          = m.mapWidgets fun id' x =>
            if id' = id ∧ windowPtr ≠ some id then { x with visible := false } else x := by
        split
        · rename_i hcond
          rw [Bool.and_eq_true, decide_eq_true_iff] at hcond
          rw [hide_eq]
          exact mapWidgets_congr fun id' x _ =>
            (if_congr (and_iff_left hcond.2) rfl rfl).symm
        · rename_i hcond
          rw [Bool.and_eq_true, decide_eq_true_iff, not_and] at hcond
          refine mapWidgets_id.symm.trans (mapWidgets_congr fun id' x hx => (if_neg ?_).symm)
          rintro ⟨rfl, hptr⟩
          exact hcond (by rw [hx]; rfl) hptr
      rw [List.foldl_cons, hfirst, ih, mapWidgets_mapWidgets]
      refine mapWidgets_congr fun id' x _ => ?_
      by_cases hid : id' = id
      · by_cases hptr : windowPtr = some id
        · simp only [hid, hptr, ne_eq, not_true_eq_false, and_false, if_false]
        · simp only [hid, hptr, ne_eq, not_false_eq_true, and_true, if_true, List.mem_cons,
            true_or, ite_self]
      · simp only [hid, false_and, if_false, List.mem_cons, false_or]
  exact hloop m.windows m

theorem showAndEmit_eq (w : Window) (id : ℕ) :
    m.showAndEmit w id = m.mapWidgets fun id' x =>
      { (if id' = id then { x with visible := true } else x) with
        activeButton := w.buttonName } := by
  unfold showAndEmit
  rw [changeWidget_eq]
  exact mapWidgets_mapWidgets _ _

/-! ### What a screen shows then -/

theorem shows_start : Shows (start : WindowManager D) Screen.start where
  kind h := by cases h
  listed h := by cases h
  kept w := rfl
  visible h := by cases h
  shown h := by cases h
  fresh _ := rfl
  old h := by cases h

/-- Widgets that keep their kinds may be changed. -/
theorem Shows.mapWidgets (h : m.Shows s) {s' : Screen D} (hkind : ∀ id x, (g id x).kind = x.kind)
    (hkept : ∀ w, s'.kept w = ((m.target w).bind fun id => (m.widgets id).map (g id)).map
      fun x => (x.madeWith, x.deleting))
    (hvisible : ∀ {id x}, m.widgets id = some x → (g id x).visible = true →
      m.target x.kind = some id ∧ s'.visible = some x.kind
        ∧ (g id x).activeButton = x.kind.buttonName)
    (hshown : ∀ {w}, s'.visible = some w →
      ∃ id x, m.target w = some id ∧ m.widgets id = some x ∧ (g id x).visible = true) :
    (m.mapWidgets g).Shows s' where
  kind {w id} htarget := by
    rw [target_mapWidgets] at htarget
    obtain ⟨x, hx, hw⟩ := h.kind htarget
    exact ⟨g id x, congrArg (Option.map _) hx, (hkind id x).trans hw⟩
  listed htarget := by
    rw [target_mapWidgets] at htarget
    exact h.listed htarget
  kept w := by
    rw [target_mapWidgets]
    exact hkept w
  visible {id x'} hx' hvis := by
    obtain ⟨x, hx, rfl⟩ := Option.map_eq_some_iff.mp hx'
    rw [hkind, target_mapWidgets]
    exact hvisible hx hvis
  shown hs := by
    obtain ⟨id, x, htarget, hx, hvis⟩ := hshown hs
    exact ⟨id, g id x, by rw [target_mapWidgets]; exact htarget, congrArg (Option.map _) hx, hvis⟩
  fresh hid := congrArg (Option.map _) (h.fresh hid)
  old := h.old

/-- What is kept of a window is its widget's, -/
theorem Shows.kept_of_target (h : m.Shows s) (htarget : m.target w = some id)
    (hx : m.widgets id = some x) : s.kept w = some (x.madeWith, x.deleting) := by
  rw [h.kept, htarget, Option.bind_some, hx]
  rfl

/-- and of one that is not there nothing is kept, nor is it visible. -/
theorem Shows.none_of_target (h : m.Shows s) (htarget : m.target w = none) :
    s.kept w = none ∧ s.visible ≠ some w := by
  constructor
  · rw [h.kept, htarget]
    rfl
  · intro hs
    obtain ⟨id, x, hid, -⟩ := h.shown hs
    rw [htarget] at hid
    cases hid

/-- No two windows have one widget. -/
theorem Shows.target_inj (h : m.Shows s) {w' : Window} (htarget : m.target w = some id)
    (htarget' : m.target w' = some id) : w' = w := by
  obtain ⟨x, hx, rfl⟩ := h.kind htarget
  obtain ⟨x', hx', rfl⟩ := h.kind htarget'
  rw [Option.some.inj (hx.symm.trans hx')]

/-- A widget that a pointer leads to has been made. -/
theorem Shows.lt_next (h : m.Shows s) (htarget : m.target w = some id) : id < m.next :=
  h.old (target_eq_some.mp htarget).1

/-- What was neither made with something else nor closed is kept. -/
theorem Shows.kept_of_same (h : m.Shows s)
    (hsame : ∀ id x, (g id x).madeWith = x.madeWith ∧ (g id x).deleting = x.deleting)
    (w : Window) : s.kept w = ((m.target w).bind fun id => (m.widgets id).map (g id)).map
      fun x => (x.madeWith, x.deleting) := by
  rw [h.kept]
  cases m.target w with
  | none => rfl
  | some id =>
    change Option.map _ (m.widgets id) = Option.map _ (Option.map (g id) (m.widgets id))
    rw [Option.map_map]
    refine congrArg (fun f => Option.map f (m.widgets id)) (funext fun x => ?_)
    rw [Function.comp, (hsame id x).1, (hsame id x).2]

/-- **The others are hidden**, of which the one that is to be shown was not
visible. -/
theorem Shows.hideOthers (h : m.Shows s) {windowPtr : Option ℕ}
    (hptr : ∀ id x, windowPtr = some id → m.widgets id = some x → x.visible = false) :
    (m.hideOthers windowPtr).Shows ⟨none, s.kept⟩ := by
  rw [hideOthers_eq]
  refine h.mapWidgets ?_ (h.kept_of_same ?_) ?_ fun hs => by cases hs
  · intro id x
    split <;> rfl
  · intro id x
    split <;> exact ⟨rfl, rfl⟩
  · intro id x hx hvis
    exfalso
    split at hvis
    · cases hvis
    · rename_i hnot
      have hlisted : id ∈ m.windows := h.listed (h.visible hx hvis).1
      have hself : windowPtr = some id := by
        by_contra hne
        exact hnot ⟨hlisted, hne⟩
      rw [hptr id x hself hx] at hvis
      cases hvis

/-- **A window is shown**, if all are hidden. -/
theorem Shows.showAndEmit {kept : Window → Option (Option D × Bool)} (h : m.Shows ⟨none, kept⟩)
    (htarget : m.target w = some id) : (m.showAndEmit w id).Shows ⟨some w, kept⟩ := by
  obtain ⟨x, hx, hw⟩ := h.kind htarget
  rw [showAndEmit_eq]
  refine h.mapWidgets ?_ (h.kept_of_same (s := ⟨none, kept⟩) ?_) ?_ ?_
  · intro id' x'
    dsimp only
    split <;> rfl
  · intro id' x'
    dsimp only
    split <;> exact ⟨rfl, rfl⟩
  · intro id' x' hx' hvis
    by_cases hid : id' = id
    · rw [hid] at hx' ⊢
      obtain rfl := Option.some.inj (hx.symm.trans hx')
      exact ⟨hw ▸ htarget, congrArg some hw.symm, congrArg Window.buttonName hw.symm⟩
    · dsimp only at hvis
      rw [if_neg hid] at hvis
      exact absurd (h.visible hx' hvis).2.1 (Option.some_ne_none _).symm
  · intro w' hs
    obtain rfl := Option.some.inj hs
    exact ⟨id, x, htarget, hx, by rw [if_pos rfl]⟩

/-- What is made is what its pointer leads to, -/
theorem target_make_self (args : Option D) : (m.make w args).target w = some m.next := by
  rw [target_eq_some]
  refine ⟨Function.update_self .., ?_⟩
  change (Function.update m.widgets m.next _ m.next).isSome = true
  rw [Function.update_self]
  rfl

/-- and the other pointers lead where they led. -/
theorem Shows.target_make_of_ne (h : m.Shows s) {w' : Window} (hw' : w' ≠ w) (args : Option D) :
    (m.make w args).target w' = m.target w' := by
  refine Option.ext fun id => ?_
  rw [target_eq_some, target_eq_some]
  change Function.update m.pointer w _ w' = some id
    ∧ (Function.update m.widgets m.next _ id).isSome = true ↔ _
  rw [Function.update_of_ne hw']
  refine and_congr_right fun hptr => ?_
  rw [Function.update_of_ne (Nat.ne_of_lt (h.old hptr))]

theorem widgets_make_next (args : Option D) : (m.make w args).widgets m.next
    = some ⟨w, args, false, false, Window.received.buttonName⟩ := Function.update_self ..

theorem widgets_make_of_ne (hid : id ≠ m.next) (args : Option D) :
    (m.make w args).widgets id = m.widgets id := Function.update_of_ne hid ..

/-- **A window is made** that there was not. -/
theorem Shows.make {kept : Window → Option (Option D × Bool)} (h : m.Shows ⟨none, kept⟩)
    (args : Option D) :
    (m.make w args).Shows ⟨none, Function.update kept w (some (args, false))⟩ where
  kind {w' id} htarget := by
    by_cases hw' : w' = w
    · rw [hw', target_make_self] at htarget
      obtain rfl := Option.some.inj htarget
      exact ⟨_, widgets_make_next args, hw'.symm⟩
    · rw [h.target_make_of_ne hw'] at htarget
      rw [widgets_make_of_ne (Nat.ne_of_lt (h.lt_next htarget))]
      exact h.kind htarget
  listed {w' id} htarget := by
    by_cases hw' : w' = w
    · rw [hw', target_make_self] at htarget
      obtain rfl := Option.some.inj htarget
      exact List.mem_append_right _ (List.mem_singleton_self _)
    · rw [h.target_make_of_ne hw'] at htarget
      exact List.mem_append_left _ (h.listed htarget)
  kept w' := by
    by_cases hw' : w' = w
    · rw [hw', target_make_self, Option.bind_some, widgets_make_next]
      exact Function.update_self ..
    · rw [h.target_make_of_ne hw']
      refine ((Function.update_of_ne hw' ..).trans (h.kept w')).trans ?_
      cases htarget : m.target w' with
      | none => rfl
      | some id =>
        rw [Option.bind_some, Option.bind_some,
          widgets_make_of_ne (Nat.ne_of_lt (h.lt_next htarget))]
  visible {id x} hx hvis := by
    by_cases hid : id = m.next
    · rw [hid, widgets_make_next] at hx
      rw [← Option.some.inj hx] at hvis
      cases hvis
    · rw [widgets_make_of_ne hid] at hx
      exact absurd (h.visible hx hvis).2.1 (Option.some_ne_none _).symm
  shown hs := by cases hs
  fresh {id} hid := by
    rw [widgets_make_of_ne (Nat.ne_of_gt hid)]
    exact h.fresh (Nat.le_of_succ_le hid)
  old {w' id} hptr := by
    replace hptr : Function.update m.pointer w (some m.next) w' = some id := hptr
    by_cases hw' : w' = w
    · rw [hw', Function.update_self] at hptr
      obtain rfl := Option.some.inj hptr
      exact Nat.lt_succ_self _
    · rw [Function.update_of_ne hw'] at hptr
      exact Nat.lt_succ_of_lt (h.old hptr)

/-- A window is closed. -/
theorem Shows.close (h : m.Shows s) (w : Window) : (m.close w).Shows
    ⟨if s.visible = some w then none else s.visible,
      Function.update s.kept w ((s.kept w).map fun k => (k.1, true))⟩ := by
  unfold WindowManager.close
  cases htarget : m.target w with
  | none =>
    obtain ⟨hkept, hvisible⟩ := h.none_of_target htarget
    rw [if_neg hvisible, hkept, Option.map_none, ← hkept, Function.update_eq_self]
    exact h
  | some id =>
    obtain ⟨x, hx, hw⟩ := h.kind htarget
    dsimp only
    rw [changeWidget_eq]
    refine h.mapWidgets ?_ ?_ ?_ ?_
    · intro id' x'
      split <;> rfl
    · intro w'
      by_cases hw' : w' = w
      · rw [hw']
        refine (Function.update_self ..).trans ?_
        rw [h.kept, htarget, Option.bind_some, Option.bind_some, hx]
        simp only [Option.map_some, if_true]
      · refine (Function.update_of_ne hw' ..).trans ((h.kept w').trans ?_)
        cases htarget' : m.target w' with
        | none => rfl
        | some id' =>
          obtain ⟨x', hx', -⟩ := h.kind htarget'
          have hne : id' ≠ id := by
            rintro rfl
            exact hw' (h.target_inj htarget htarget')
          simp only [Option.bind_some, hx', Option.map_some, if_neg hne]
    · intro id' x' hx' hvis
      split at hvis
      · cases hvis
      · rename_i hne
        obtain ⟨htarget', hs, hbutton⟩ := h.visible hx' hvis
        have hnot : x'.kind ≠ w := by
          rintro rfl
          exact hne (Option.some.inj (htarget'.symm.trans htarget))
        refine ⟨htarget', ?_, by rw [if_neg hne]; exact hbutton⟩
        rw [hs]
        exact if_neg fun hsome => hnot (Option.some.inj hsome)
    · intro w' hs
      dsimp only at hs
      split at hs
      · cases hs
      · rename_i hnot
        obtain ⟨id', x', htarget', hx', hvis⟩ := h.shown hs
        refine ⟨id', x', htarget', hx', ?_⟩
        rw [if_neg, hvis]
        rintro rfl
        exact hnot (h.target_inj htarget htarget' ▸ hs)

/-- A pointer that is let go leads nowhere, -/
theorem target_letGo_self :
    target { m with pointer := Function.update m.pointer w none } w = none := by
  rw [target]
  dsimp only
  rw [Function.update_self]
  rfl

/-- and the others lead where they led. -/
theorem target_letGo_of_ne {w' : Window} (hw' : w' ≠ w) :
    target { m with pointer := Function.update m.pointer w none } w' = m.target w' := by
  unfold target
  dsimp only
  rw [Function.update_of_ne hw']

/-- A pointer that leads to nothing visible is let go. -/
theorem Shows.letGo (h : m.Shows s) (hvisible : s.visible ≠ some w) :
    Shows { m with pointer := Function.update m.pointer w none }
      ⟨s.visible, Function.update s.kept w none⟩ := by
  have hled : ∀ {w' id},
      target { m with pointer := Function.update m.pointer w none } w' = some id →
        m.target w' = some id := by
    intro w' id htarget
    by_cases hw' : w' = w
    · rw [hw', target_letGo_self] at htarget
      cases htarget
    · rwa [target_letGo_of_ne hw'] at htarget
  refine ⟨fun htarget => h.kind (hled htarget), fun htarget => h.listed (hled htarget), ?_, ?_, ?_,
    h.fresh, ?_⟩
  · intro w'
    by_cases hw' : w' = w
    · rw [hw', target_letGo_self]
      exact Function.update_self ..
    · rw [target_letGo_of_ne hw']
      exact (Function.update_of_ne hw' ..).trans (h.kept w')
  · intro id x hx hvis
    obtain ⟨htarget, hs, hbutton⟩ := h.visible hx hvis
    have hkind : x.kind ≠ w := fun hkind => hvisible (hkind ▸ hs)
    exact ⟨(target_letGo_of_ne hkind).trans htarget, hs, hbutton⟩
  · intro w' hs
    have hw' : w' ≠ w := fun hw' => hvisible (hw' ▸ hs)
    rw [target_letGo_of_ne hw']
    exact h.shown hs
  · intro w' id hptr
    replace hptr : Function.update m.pointer w none w' = some id := hptr
    by_cases hw' : w' = w
    · rw [hw', Function.update_self] at hptr
      cases hptr
    · rw [Function.update_of_ne hw'] at hptr
      exact h.old hptr

/-- A window is deleted: closed, and forgotten. -/
theorem Shows.deleteWindow (h : m.Shows s) (w : Window) : (m.deleteWindow w).Shows
    ⟨if s.visible = some w then none else s.visible, Function.update s.kept w none⟩ := by
  have hclose := h.close w
  unfold WindowManager.close at hclose
  unfold WindowManager.deleteWindow
  cases htarget : m.target w with
  | none =>
    rw [htarget] at hclose
    rw [(h.none_of_target htarget).1, Option.map_none] at hclose
    exact hclose
  | some id =>
    rw [htarget] at hclose
    have hvisible : (if s.visible = some w then none else s.visible) ≠ some w := by
      split
      · exact (Option.some_ne_none w).symm
      · assumption
    have hletGo := hclose.letGo hvisible
    dsimp only at hletGo
    rw [Function.update_idem] at hletGo
    exact hletGo

/-- **After cleaning up** there is nothing on the screen and nothing kept. -/
theorem Shows.cleanup (h : m.Shows s) : m.cleanup.Shows .start := by
  have hfold : ∀ (l : List Window) (m : WindowManager D) (s : Screen D), m.Shows s →
      ∃ s', (l.foldl WindowManager.deleteWindow m).Shows s'
        ∧ (∀ w ∈ l, s'.kept w = none) ∧ ∀ w, s.kept w = none → s'.kept w = none := by
    intro l
    induction l with
    | nil => exact fun m s h => ⟨s, h, fun w hw => absurd hw List.not_mem_nil, fun w hw => hw⟩
    | cons w l ih =>
      intro m s h
      obtain ⟨s', h', hl, hkept⟩ := ih _ _ (h.deleteWindow w)
      refine ⟨s', h', fun w' hw' => ?_, fun w' hw' => hkept w' ?_⟩
      · obtain rfl | hw' := List.mem_cons.mp hw'
        · exact hkept w' (Function.update_self ..)
        · exact hl w' hw'
      · by_cases heq : w' = w
        · rw [heq]
          exact Function.update_self ..
        · exact (Function.update_of_ne heq ..).trans hw'
  obtain ⟨s', h', hnone, -⟩ := hfold Window.all m s h
  have htarget : ∀ w, (Window.all.foldl WindowManager.deleteWindow m).target w = none := by
    intro w
    have hkept := h'.kept w
    rw [hnone w w.mem_all] at hkept
    cases htarget : (Window.all.foldl WindowManager.deleteWindow m).target w with
    | none => rfl
    | some id =>
      obtain ⟨x, hx, -⟩ := h'.kind htarget
      rw [htarget, Option.bind_some, hx] at hkept
      cases hkept
  have htarget' : ∀ {w id}, m.cleanup.target w = some id → False := by
    intro w id hid
    have : m.cleanup.target w = none := htarget w
    rw [this] at hid
    cases hid
  refine ⟨fun hid => (htarget' hid).elim, fun hid => (htarget' hid).elim, fun w => ?_,
    fun hx hvis => (htarget' (h'.visible hx hvis).1).elim, fun {w} hs => ?_, h'.fresh, h'.old⟩
  · have : m.cleanup.target w = none := htarget w
    rw [this]
    rfl
  · cases hs

/-- Once what was closed is deleted, a pointer leads to a widget that was not. -/
theorem target_deleteLater_eq_some :
    target { m with widgets := fun id => (m.widgets id).filter (!·.deleting) } w = some id
      ↔ m.target w = some id ∧ ∃ x, m.widgets id = some x ∧ x.deleting = false := by
  rw [target_eq_some, target_eq_some]
  dsimp only
  cases hx : m.widgets id with
  | none => simp only [Option.filter_none, Option.isSome_none, Bool.false_eq_true, and_false,
      false_and]
  | some x => cases hdeleting : x.deleting <;> simp [Option.filter, hdeleting]

/-- What was not closed is kept. -/
theorem Shows.kept_deleteLater (h : m.Shows s) (w : Window) :
    (s.kept w).filter (!·.2)
      = ((target { m with widgets := fun id => (m.widgets id).filter (!·.deleting) } w).bind
          fun id => (m.widgets id).filter (!·.deleting)).map
        fun x => (x.madeWith, x.deleting) := by
  cases htarget' : target { m with widgets := fun id => (m.widgets id).filter (!·.deleting) } w with
  | some id =>
    obtain ⟨htarget, x, hx, hdeleting⟩ := target_deleteLater_eq_some.mp htarget'
    rw [h.kept_of_target htarget hx, Option.bind_some, hx]
    simp [Option.filter, hdeleting]
  | none =>
    have hnot : ∀ id, ¬ (m.target w = some id ∧ ∃ x, m.widgets id = some x ∧ x.deleting = false) :=
      fun id hid => Option.some_ne_none id
        ((target_deleteLater_eq_some.mpr hid).symm.trans htarget')
    cases htarget : m.target w with
    | none =>
      rw [(h.none_of_target htarget).1]
      rfl
    | some id =>
      obtain ⟨x, hx, -⟩ := h.kind htarget
      have hdeleting : x.deleting = true :=
        eq_true_of_ne_false fun hstays => hnot id ⟨htarget, x, hx, hstays⟩
      rw [h.kept_of_target htarget hx]
      simp [Option.filter, hdeleting]

/-- What was closed is deleted. -/
theorem Shows.deleteLater (h : m.Shows s) :
    Shows { m with widgets := fun id => (m.widgets id).filter (!·.deleting) }
      ⟨s.visible.filter fun w => (s.kept w).any (!·.2), fun w => (s.kept w).filter (!·.2)⟩ where
  kind htarget := by
    obtain ⟨htarget, x, hx, hdeleting⟩ := target_deleteLater_eq_some.mp htarget
    obtain ⟨x', hx', hw⟩ := h.kind htarget
    obtain rfl := Option.some.inj (hx.symm.trans hx')
    exact ⟨x, Option.filter_eq_some_iff.mpr ⟨hx, by rw [hdeleting]; rfl⟩, hw⟩
  listed htarget := h.listed (target_deleteLater_eq_some.mp htarget).1
  kept := h.kept_deleteLater
  visible {id x} hx hvis := by
    obtain ⟨hx, hdeleting⟩ := Option.filter_eq_some_iff.mp hx
    rw [Bool.not_eq_true'] at hdeleting
    obtain ⟨htarget, hs, hbutton⟩ := h.visible hx hvis
    refine ⟨target_deleteLater_eq_some.mpr ⟨htarget, x, hx, hdeleting⟩, ?_, hbutton⟩
    refine Option.filter_eq_some_iff.mpr ⟨hs, ?_⟩
    rw [h.kept_of_target htarget hx, hdeleting]
    rfl
  shown {w} hs := by
    obtain ⟨hs, hkept⟩ := Option.filter_eq_some_iff.mp hs
    obtain ⟨id, x, htarget, hx, hvis⟩ := h.shown hs
    rw [h.kept_of_target htarget hx] at hkept
    replace hkept : (!x.deleting) = true := hkept
    rw [Bool.not_eq_true'] at hkept
    exact ⟨id, x, target_deleteLater_eq_some.mpr ⟨htarget, x, hx, hkept⟩,
      Option.filter_eq_some_iff.mpr ⟨hx, by rw [hkept]; rfl⟩, hvis⟩
  fresh {id} hid := by
    dsimp only
    rw [h.fresh hid]
    rfl
  old := h.old

/-- **A window is shown.** -/
theorem Shows.showWindow (h : m.Shows s) (w : Window) (args : Option D) (throws : Bool) :
    (m.showWindow w args throws).1 = (s.showWindow w args throws).1
      ∧ (m.showWindow w args throws).2.Shows (s.showWindow w args throws).2 := by
  unfold WindowManager.showWindow Screen.showWindow
  cases htarget : m.target w with
  | none =>
    obtain ⟨hkept, hvisible⟩ := h.none_of_target htarget
    rw [if_neg hvisible, hkept]
    have hhidden : (m.hideOthers none).Shows ⟨none, s.kept⟩ :=
      h.hideOthers fun id x hid => by cases hid
    cases throws with
    | true => exact ⟨rfl, hhidden⟩
    | false => exact ⟨rfl, (hhidden.make args).showAndEmit (target_make_self args)⟩
  | some id =>
    obtain ⟨x, hx, hw⟩ := h.kind htarget
    dsimp only
    cases hvis : x.visible with
    | true =>
      have hs : s.visible = some w := hw ▸ (h.visible hx hvis).2.1
      rw [if_pos hs, hx, Option.any_some, hvis]
      exact ⟨rfl, h⟩
    | false =>
      have hs : s.visible ≠ some w := by
        intro hs
        obtain ⟨id', x', htarget', hx', hvis'⟩ := h.shown hs
        rw [Option.some.inj (htarget'.symm.trans htarget), hx] at hx'
        rw [← Option.some.inj hx', hvis] at hvis'
        cases hvis'
      have hthere : ((s.kept w).isNone && throws) = false := by
        rw [h.kept_of_target htarget hx]
        rfl
      rw [if_neg hs, hthere, hx, Option.any_some, hvis]
      refine ⟨rfl, ?_⟩
      have hhidden : (m.hideOthers (some id)).Shows ⟨none, s.kept⟩ := by
        refine h.hideOthers fun id' x' hid hx' => ?_
        rw [← Option.some.inj hid, hx] at hx'
        rw [← Option.some.inj hx', hvis]
      have hsame : (m.hideOthers (some id)).target w = some id := by
        rw [hideOthers_eq, target_mapWidgets, htarget]
      have hkept : Function.update s.kept w ((s.kept w).or (some (args, false))) = s.kept := by
        rw [h.kept_of_target htarget hx, Option.some_or, ← h.kept_of_target htarget hx,
          Function.update_eq_self]
      rw [hkept]
      exact hhidden.showAndEmit hsame

/-- **One step of the manager is one of the screen.** -/
theorem Shows.step (h : m.Shows s) (op : WindowOp D) :
    (m.step op).1 = (s.step op).1 ∧ (m.step op).2.Shows (s.step op).2 := by
  cases op with
  | «show» w args throws => exact h.showWindow w args throws
  | close w => exact ⟨rfl, h.close w⟩
  | deleteLater => exact ⟨rfl, h.deleteLater⟩
  | restart throws => exact h.cleanup.showWindow .login none throws

theorem Shows.run (h : m.Shows s) (ops : List (WindowOp D)) :
    Run.outputs WindowManager.step ops m = Run.outputs Screen.step ops s
      ∧ (Run.final WindowManager.step ops m).Shows (Run.final Screen.step ops s) := by
  induction ops generalizing m s with
  | nil => exact ⟨rfl, h⟩
  | cons op ops ih =>
    obtain ⟨hout, hstep⟩ := h.step op
    obtain ⟨houts, hfinal⟩ := ih hstep
    exact ⟨by rw [Run.outputs, Run.outputs, hout, houts], hfinal⟩

end WindowManager

/-- **The windows are a screen**, whatever is shown, fails to be made, is closed
and deleted in whatever order: the same is emitted, what is visible is the one
window of the screen, with its own button marked, and every window was made
with what the screen keeps. -/
theorem screen_of_ops (ops : List (WindowOp D)) :
    let m := Run.final WindowManager.step ops .start
    let s := Run.final Screen.step ops .start
    Run.outputs WindowManager.step ops .start = Run.outputs Screen.step ops .start
    ∧ (∀ id x, m.widgets id = some x → x.visible = true →
        s.visible = some x.kind ∧ m.target x.kind = some id
          ∧ x.activeButton = x.kind.buttonName)
    ∧ (∀ w, s.visible = some w →
        ∃ id x, m.target w = some id ∧ m.widgets id = some x ∧ x.visible = true)
    ∧ ∀ w, ((m.target w).bind m.widgets).map (fun x => (x.madeWith, x.deleting)) = s.kept w := by
  obtain ⟨hout, h⟩ := (WindowManager.shows_start (D := D)).run ops
  refine ⟨hout, fun id x hx hvis => ?_, fun w hs => h.shown hs, fun w => (h.kept w).symm⟩
  obtain ⟨htarget, hs, hbutton⟩ := h.visible hx hvis
  exact ⟨hs, htarget, hbutton⟩

/-- A code is shown, its user goes back, and another one shall register: it is
the first code that is shown again. -/
example : (Run.final Screen.step [.show .login none false,
    .show .deviceRegister (some "alice's code") false, .show .login none false,
    .show .deviceRegister (some "bob's code") false] .start).kept .deviceRegister
      = some (some "alice's code", false) := rfl

/-- A user logs in, and the files they received cannot be listed. -/
example : (Run.final Screen.step [.show .login (none : Option String) false,
    .show .received none true] .start).visible = none := rfl

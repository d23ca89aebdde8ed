import Utinydrm.Event.PanelMirror
import Utinydrm.Event.PipeState
import Utinydrm.Event.Displays

/-
  The panel as a screen that is painted by dirty events.

  Over a link that a flush can send its pixels over, and over
  whole runs of events and drawing, the panel shows the
  picture of an abstract screen: a dirty event of a prepared
  display paints its clip with the pixels of its framebuffer,
  and nothing else paints, however often the display is
  switched off and on and framebuffers come and go.

  Key definitions include:
    * `World.BuffersApart`
    * `painted`
    * `ScreenStep`, `FlushesShowable`
    * `Link.Paints`

  Main declarations:
    * `displays_of_event`
    * `Link.Paints.shows`
-/

------------------------------------------------------------
-- The Screen
------------------------------------------------------------

namespace Utinydrm

instance (clip : DrmClipRect) (x y : Nat) :
    Decidable (clip.Holds x y) :=
  inferInstanceAs (Decidable ((_ ∧ _) ∧ _ ∧ _))

/-
  What an event paints. A dirty event of a prepared display
  paints its clip with the pixels of the framebuffer it is
  for, as they arrive. No other event paints anything.
-/
def painted
    (arrives : UInt16 → UInt16) (w : World)
    (picture : Raster.Picture UInt16) :
    Event → Raster.Picture UInt16
| .fbDirty dirty clips =>
    match w.fbs.find? (fun ufb => ufb.id = dirty.fbId) with
    | some fb =>
        if w.prepared then fun x y =>
          if (flushedClip w fb dirty clips).Holds x y then
            arrives (fb.pixelAt w (fb.storedAt x y))
          else
            picture x y
        else
          picture
    | none => picture
| _ => picture

/-
  The kernel gives buffers that are in use mappings that do
  not overlap and descriptors that differ, none of them that
  of the standard input.
-/
structure World.BuffersApart (w : World) : Prop where
  disjoint : w.MappingsDisjoint
  fds : w.fbs.Pairwise fun a b => a.bufFd ≠ b.bufFd
  fdsUsed : ∀ ufb ∈ w.fbs, ufb.bufFd ≠ 0
  txBufFd : ∀ buf, w.txBuf = .valid buf → buf.fd ≠ 0
  txBufApart : ∀ buf, w.txBuf = .valid buf → ∀ ufb ∈ w.fbs,
    ufb.bufFd ≠ buf.fd ∧
      (Ptr.mapped ufb.map).Apart ufb.mapSize.toNat buf.map
        buf.mapSize

/- It is a matter of two fields of the state. -/
theorem World.BuffersApart.of_same
    {w w' : World} (hApart : w.BuffersApart)
    (hFbs : w'.fbs = w.fbs) (hTxBuf : w'.txBuf = w.txBuf) :
    w'.BuffersApart := by
  refine ⟨?_, ?_, ?_, ?_, ?_⟩
  · rw [World.MappingsDisjoint, hFbs]
    exact hApart.disjoint
  · rw [hFbs]
    exact hApart.fds
  · rw [hFbs]
    exact hApart.fdsUsed
  · rw [hTxBuf]
    exact hApart.txBufFd
  · rw [hFbs, hTxBuf]
    exact hApart.txBufApart

/- Clients draw, and the kernel sends events. -/
inductive Happening where
| draw (mem : Nat → UInt8)
| event (event : Event) (ret : Int)

/-
  A step of the process and its clients, with the picture of
  the screen. Drawing changes mapped memory in any way.
-/
def ScreenStep
    (env : Env) (mipi : MipiDbi) (arrives : UInt16 → UInt16)
    (s : World × Raster.Picture UInt16)
    (happening : Happening)
    (s' : World × Raster.Picture UInt16) : Prop :=
  match happening with
  | .draw mem => s' = ({ s.1 with mem := mem }, s.2)
  | .event event ret =>
      EventStep env mipi s.1 (event, ret) s'.1 ∧
      s'.1.BuffersApart ∧
      s'.2 = painted arrives s.1 s.2 event

/-
  What is flushed is a clip that a flush shows, and of those
  that the link carries.
-/
def FlushesShowable
    (carried : DrmClipRect → Prop)
    (_ : List Happening) (s : World × Raster.Picture UInt16) :
    Happening → Prop
| .event (.fbDirty dirty clips) _ =>
    s.1.prepared = true → ∀ fb,
      s.1.fbs.find? (fun ufb => ufb.id = dirty.fbId) =
        some fb →
      fb.WellSized ∧
        (flushedClip s.1 fb dirty clips).Showable fb ∧
        carried (flushedClip s.1 fb dirty clips)
| _ => True

/-
  The link works, and a flush that ends with the buffers
  apart has sent the pixels of its clip, as they arrive.
-/
structure Link.Paints
    (link : Link) (env : Env) (mipi : MipiDbi)
    (arrives : UInt16 → UInt16)
    (carried : DrmClipRect → Prop) : Prop where
  works : link.Works env mipi.mspi
  flush : ∀ {w w' : World} {fb : UtinydrmFb}
    {clip : DrmClipRect} {ret : Int},
    link.Ready w → fb ∈ w.fbs →
    fb.mapSize.toNat = fb.height.toNat * fb.pitch.toNat →
    ClipInside fb clip → carried clip →
    mipiDbiFbFlush env mipi fb clip w = .ok ret w' →
    w'.BuffersApart →
    link.Sends w w' (clipFrames clip
      ((fb.flushPixels clip w).map arrives))

end Utinydrm

------------------------------------------------------------
-- One Event
------------------------------------------------------------

namespace Utinydrm

variable {env : Env} {mipi : MipiDbi} {link : Link}
variable {arrives : UInt16 → UInt16}
variable {panel : Panel} {picture : Raster.Picture UInt16}
variable {w w' : World} {ret : Int}

section Quiet

variable (hWorks : link.Works env mipi.mspi)
variable (hDisplays : Displays link panel picture w)

include hWorks hDisplays

/- Creating a framebuffer sends nothing. -/
theorem displays_of_fbCreate
    {fbId : UInt32}
    (hRun : utinydrmFbCreate env fbId w = .ok ret w') :
    Displays link panel picture w' := by
  rcases utinydrmFbCreate_run env fbId w with
    ⟨calls, _, _, hCreate, hRun'⟩
  cases hRun.symm.trans hRun'
  refine hDisplays.of_quiet hWorks (.of_log calls rfl ?_) rfl
    rfl rfl
  cases hCreate <;> simp [Call.isMessage]

/- Nor does destroying one. -/
theorem displays_of_fbDestroy
    {fbId : UInt32}
    (hRun : utinydrmFbDestroy env fbId w = .ok ret w') :
    Displays link panel picture w' := by
  rcases utinydrmFbDestroy_cases env fbId w with
    hSame | ⟨prev, curr, map, size, result, hGone⟩
  · cases hRun.symm.trans hSame
    exact hDisplays
  · cases hRun.symm.trans hGone
    exact hDisplays.of_quiet hWorks
      (.of_log [.munmap map size result] rfl
        (by simp [Call.isMessage])) rfl rfl rfl

/- A report to a display that is not prepared paints nothing. -/
theorem displays_of_unprepared
    (hPrepared : w.prepared = false)
    {dirty : DrmModeFbDirtyCmd} {clips : Nat → DrmClipRect}
    (hRun : utinydrmFbDirty env mipi dirty clips w =
      .ok ret w') :
    Displays link panel
      (painted arrives w picture (.fbDirty dirty clips))
      w' := by
  have hNone :
      painted arrives w picture (.fbDirty dirty clips) =
        picture := by
    simp only [painted, hPrepared, Bool.false_eq_true, if_false]
    split <;> rfl
  rw [hNone]
  rcases utinydrmFbDirty_cases hRun with
    rfl | ⟨ufb, _, _, code, hDirty⟩
  · exact hDisplays
  · rcases mipiDbiFbDirty_cases hDirty with
      ⟨_, _, rfl⟩ | ⟨hOther, _⟩
    · exact hDisplays.of_quiet hWorks (.of_log_eq rfl) rfl rfl
        rfl
    · exact absurd (hPrepared.symm.trans hOther) (by simp)

omit hWorks in
/- So does one for a framebuffer that is not listed. -/
theorem displays_of_unlisted
    {dirty : DrmModeFbDirtyCmd} {clips : Nat → DrmClipRect}
    (hFind : w.fbs.find? (fun ufb => ufb.id = dirty.fbId) =
      none)
    (hRun : utinydrmFbDirty env mipi dirty clips w =
      .ok ret w') :
    Displays link panel
      (painted arrives w picture (.fbDirty dirty clips))
      w' := by
  have hNone :
      painted arrives w picture (.fbDirty dirty clips) =
        picture := by
    simp only [painted, hFind]
  rw [hNone]
  rcases utinydrmFbDirty_cases hRun with
    rfl | ⟨ufb, hMem, hId, _⟩
  · exact hDisplays
  · have hNot := List.find?_eq_none.mp hFind ufb hMem
    exact absurd (decide_eq_true hId) hNot

end Quiet

/- The end of a dirty event, whatever the flush returned. -/
theorem fbDirty_end_quiet
    {code : Int}
    (hRun : (if code ≠ 0 then pure code
      else mipiDbiFbEnable env mipi code) w = .ok ret w') :
    w.Quiet w' ∧ w'.fbs = w.fbs ∧ w'.bufFd = w.bufFd ∧
      w'.txBuf = w.txBuf ∧ w'.mspiTxBuf = w.mspiTxBuf := by
  by_cases hCode : code = 0
  case neg =>
    rw [if_pos hCode] at hRun
    cases hRun
    exact ⟨.of_log_eq rfl, rfl, rfl, rfl, rfl⟩
  case pos =>
    rw [if_neg (not_not.mpr hCode), hCode] at hRun
    rcases mipiDbiFbEnable_quiet env mipi w with
      ⟨_, s, hEnable, hQuiet, _, hFbs, hBufFd, hTxBuf, hAsked,
        _⟩
    cases hRun.symm.trans hEnable
    exact ⟨hQuiet, hFbs, hBufFd, hTxBuf, hAsked⟩

section Paints

variable {carried : DrmClipRect → Prop}
variable (hPaints : link.Paints env mipi arrives carried)
variable (hDisplays : Displays link panel picture w)
variable (hApart : w'.BuffersApart)

include hPaints hDisplays hApart

/- A report of a showable clip paints it. -/
theorem displays_of_report
    (hPrepared : w.prepared = true)
    {dirty : DrmModeFbDirtyCmd} (clips : Nat → DrmClipRect)
    {fb : UtinydrmFb} (hSized : fb.WellSized)
    (hFind : w.fbs.find? (fun ufb => ufb.id = dirty.fbId) =
      some fb)
    (hShowable : (flushedClip w fb dirty clips).Showable fb)
    (hCarried : carried (flushedClip w fb dirty clips))
    (hRun : utinydrmFbDirty env mipi dirty clips w =
      .ok ret w') :
    Displays link panel
      (painted arrives w picture (.fbDirty dirty clips))
      w' := by
  let w₁ : World := { w with planeFb := some fb }
  have hStart : Displays link panel picture w₁ :=
    hDisplays.of_quiet hPaints.works (.of_log_eq rfl) rfl rfl
      rfl
  have hInside := hSized.clipInside w dirty clips
  have hMem : fb ∈ w₁.fbs := List.mem_of_find?_eq_some hFind
  rw [utinydrmFbDirty_eq mipi clips hFind hPrepared] at hRun
  rcases Effect.exists_of_bind_ok hRun with
    ⟨code, w₂, hFlush, hRest⟩
  rcases Effect.exists_of_bind_ok hRest with
    ⟨_, w₃, hEnable, hEnd⟩
  cases hEnd
  rcases fbDirty_end_quiet hEnable with
    ⟨hQuiet, hFbs, hBufFd, hTxBuf, hAsked⟩
  -- the flush sends the frames, and what follows nothing
  have hFlushed := hPaints.flush hStart.ready hMem hSized.size
    hInside hCarried hFlush (hApart.of_same hFbs.symm
      hTxBuf.symm)
  have hEnded := hPaints.works.quiet hFlushed.ready hQuiet
    hTxBuf hAsked hBufFd
  refine ⟨hEnded.ready, ?_⟩
  have hShown := hInside.shown hShowable arrives w₁
    (panel.run (link.received w₁))
  rw [← hFlushed.picture, hStart.shown] at hShown
  rw [hEnded.picture]
  funext x y
  simp only [painted, hFind, hPrepared, if_true]
  by_cases hHolds : (flushedClip w fb dirty clips).Holds x y
  · rw [if_pos hHolds]
    exact hShown.inside x y hHolds
  · rw [if_neg hHolds]
    exact hShown.rest x y hHolds

/- What the panel shows after an event is what it painted. -/
theorem displays_of_event
    (hWidth : mipi.minWidth = 0)
    {event : Event} {history : List Happening}
    (hShowable : FlushesShowable carried history (w, picture)
      (.event event ret))
    (hRun : utinydrmEvent env mipi event w = .ok ret w') :
    Displays link panel (painted arrives w picture event)
      w' := by
  have hWorks := hPaints.works
  cases event with
  | pipeEnable =>
      exact (preserves_mi0283qtEnable hWorks).of_ok hDisplays
        (mi0283qtEnable_of_event hRun)
  | pipeDisable =>
      exact (preserves_mipiDbiPipeDisable hWorks hWidth).of_ok
        hDisplays (mipiDbiPipeDisable_of_event hRun)
  | fbCreate fbId =>
      exact displays_of_fbCreate hWorks hDisplays hRun
  | fbDestroy fbId =>
      exact displays_of_fbDestroy hWorks hDisplays hRun
  | fbDirty dirty clips =>
      cases hPrepared : w.prepared with
      | false =>
          exact displays_of_unprepared hWorks hDisplays
            hPrepared hRun
      | true =>
      cases hFind :
          w.fbs.find? (fun ufb => ufb.id = dirty.fbId) with
      | none => exact displays_of_unlisted hDisplays hFind hRun
      | some fb =>
          rcases hShowable hPrepared fb hFind with
            ⟨hSized, hClip, hCarried⟩
          exact displays_of_report hPaints hDisplays hApart
            hPrepared clips hSized hFind hClip hCarried hRun
  | unknown =>
      cases hRun
      exact hDisplays

end Paints

end Utinydrm

------------------------------------------------------------
-- Runs
------------------------------------------------------------

namespace Utinydrm

variable {env : Env} {mipi : MipiDbi} {link : Link}
variable {arrives : UInt16 → UInt16}
variable {carried : DrmClipRect → Prop}

/-
  In every run of drawing and events from a state in which
  the link is ready, the panel shows the picture of the
  screen, whatever it showed at first.
-/
theorem Link.Paints.shows
    (hPaints : link.Paints env mipi arrives carried)
    (hWidth : mipi.minWidth = 0)
    {w₀ : World} (hReady : link.Ready w₀)
    {panel : Panel} {history : List Happening}
    {s : World × Raster.Picture UInt16}
    (hRun : Transition.Run (ScreenStep env mipi arrives)
      (FlushesShowable carried)
      (w₀, (panel.run (link.received w₀)).picture) history s) :
    (panel.run (link.received s.1)).picture = s.2 := by
  have hDisplays : Displays link panel s.2 s.1 := by
    apply hRun.invariant (fun s => Displays link panel s.2 s.1)
    · exact ⟨hReady, rfl⟩
    · rintro history ⟨w, picture⟩ happening ⟨w', picture'⟩
        hDisplays hShowable hStep
      cases happening with
      | draw mem =>
          cases hStep
          exact hDisplays.of_quiet hPaints.works
            (.of_log_eq rfl) rfl rfl rfl
      | event event ret =>
          rcases hStep with ⟨hEvent, hApart, hPicture⟩
          dsimp only at hPicture
          subst hPicture
          exact displays_of_event hPaints hDisplays hApart
            hWidth hShowable hEvent
  exact hDisplays.shown

end Utinydrm

------------------------------------------------------------
-- A White Pixel
------------------------------------------------------------

namespace Utinydrm

/- The framebuffer of one pixel, created first. -/
def pixelFb : UtinydrmFb where
  addr := 0
  id := 1
  handle := 1
  bufFd := 5
  map := 4 * 2 ^ 20
  mapSize := 2
  width := 1
  height := 1
  pitch := 2
  pixelFormat := .rgb565

theorem wellSized_pixelFb : pixelFb.WellSized where
  format := Or.inl rfl
  width := by decide
  height := by decide
  pitch := by decide
  bytes := by decide
  size := rfl

/- One framebuffer is apart from a buffer elsewhere. -/
theorem buffersApart_pixelFb
    {w : World} (hFbs : w.fbs = [pixelFb])
    (hTxBuf : ∀ buf, w.txBuf = .valid buf →
      buf.fd ≠ 0 ∧ pixelFb.bufFd ≠ buf.fd ∧
        (Ptr.mapped pixelFb.map).Apart pixelFb.mapSize.toNat
          buf.map buf.mapSize) :
    w.BuffersApart := by
  refine ⟨?_, ?_, ?_, fun buf h => (hTxBuf buf h).1, ?_⟩
  · rw [World.MappingsDisjoint, hFbs]
    exact List.pairwise_singleton _ _
  · rw [hFbs]
    exact List.pairwise_singleton _ _
  · rw [hFbs]
    intro ufb hMem
    rw [List.mem_singleton.mp hMem]
    decide
  · rw [hFbs]
    intro buf hBuf ufb hMem
    rw [List.mem_singleton.mp hMem]
    exact (hTxBuf buf hBuf).2

/- The report of it is the first write of the process. -/
def whiteReport : Event :=
  .fbDirty ⟨1, 0, 0, 0⟩ fun _ => ⟨0, 0, 0, 0⟩

/- It is drawn white, and reported when the display is on. -/
def whiteRun : List Happening :=
  [.event (.fbCreate 1) 0, .draw fun _ => 0xff,
    .event .pipeEnable 0, .event whiteReport 0]

/- The events go through, from what the one before left. -/
def whiteRunTest
    (mipi : MipiDbi) (arrives : UInt16 → UInt16) : Bool :=
  Effect.yieldsTest (fun ret w₁ =>
    decide (ret = 0 ∧ w₁.fbs = [pixelFb] ∧
      w₁.txBuf = .null) &&
    Effect.yieldsTest (fun ret w₂ =>
      decide (ret = 0 ∧ w₂.fbs = [pixelFb] ∧
        w₂.txBuf = .null ∧
        flushedClip w₂ pixelFb ⟨1, 0, 0, 0⟩
          (fun _ => ⟨0, 0, 0, 0⟩) = ⟨0, 0, 1, 1⟩ ∧
        painted arrives w₂ (fun _ _ => 0) whiteReport 0 0 =
          0xFFFF) &&
      Effect.yieldsTest (fun ret w₃ =>
        decide (ret = 0 ∧ w₃.fbs = [pixelFb] ∧
          (w₃.txBuf = .null ∨
            w₃.txBuf = .valid ⟨15, 14 * 2 ^ 20, 153600⟩)))
        (utinydrmEvent Env.onePixel mipi whiteReport) w₂)
      (utinydrmEvent Env.onePixel mipi .pipeEnable)
      { w₁ with mem := fun _ => 0xff })
    (utinydrmEvent Env.onePixel mipi (.fbCreate 1))
    (World.atProbe (-1))

/- The four steps of it, from a black screen. -/
theorem exists_whiteRun
    (mipi : MipiDbi) (arrives : UInt16 → UInt16)
    (carried : DrmClipRect → Prop)
    (hTest : whiteRunTest mipi arrives = true)
    (hCarried : carried ⟨0, 0, 1, 1⟩) :
    ∃ (w : World) (picture : Raster.Picture UInt16),
      Transition.Run (ScreenStep Env.onePixel mipi arrives)
        (FlushesShowable carried)
        (World.atProbe (-1), fun _ _ => 0) whiteRun
        (w, picture) ∧
      picture 0 0 = 0xFFFF := by
  rcases Effect.yields_of_yieldsTest hTest with
    ⟨_, w₁, hCreate, hTest₁⟩
  rw [Bool.and_eq_true, decide_eq_true_eq] at hTest₁
  rcases hTest₁ with ⟨⟨rfl, hFbs₁, hTx₁⟩, hTest₁⟩
  rcases Effect.yields_of_yieldsTest hTest₁ with
    ⟨_, w₂, hEnable, hTest₂⟩
  rw [Bool.and_eq_true, decide_eq_true_eq] at hTest₂
  rcases hTest₂ with
    ⟨⟨rfl, hFbs₂, hTx₂, hClip, hWhite⟩, hTest₂⟩
  rcases Effect.yields_of_yieldsTest hTest₂ with
    ⟨_, w₃, hDirty, hTest₃⟩
  rw [decide_eq_true_eq] at hTest₃
  rcases hTest₃ with ⟨rfl, hFbs₃, hTx₃⟩
  have hNull : ∀ {w : World}, w.fbs = [pixelFb] →
      w.txBuf = .null → w.BuffersApart := by
    intro w hFbs hTxBuf
    refine buffersApart_pixelFb hFbs fun buf hBuf => ?_
    rw [hTxBuf] at hBuf
    cases hBuf
  have hApart₃ : w₃.BuffersApart := by
    rcases hTx₃ with hNone | hGranted
    · exact hNull hFbs₃ hNone
    · refine buffersApart_pixelFb hFbs₃ fun buf hBuf => ?_
      rw [hGranted] at hBuf
      cases hBuf
      exact ⟨by decide, by decide, Or.inl (by decide)⟩
  let black : Raster.Picture UInt16 := fun _ _ => 0
  have hStep₁ : ScreenStep Env.onePixel mipi arrives
      (World.atProbe (-1), black) (.event (.fbCreate 1) 0)
      (w₁, black) :=
    ⟨hCreate, hNull hFbs₁ hTx₁, rfl⟩
  have hStep₂ : ScreenStep Env.onePixel mipi arrives
      (w₁, black) (.draw fun _ => 0xff)
      ({ w₁ with mem := fun _ => 0xff }, black) := rfl
  have hStep₃ : ScreenStep Env.onePixel mipi arrives
      ({ w₁ with mem := fun _ => 0xff }, black)
      (.event .pipeEnable 0) (w₂, black) :=
    ⟨hEnable, hNull hFbs₂ hTx₂, rfl⟩
  have hShowable : FlushesShowable carried [] (w₂, black)
      (.event whiteReport 0) := by
    intro _ fb hFind
    rw [hFbs₂] at hFind
    cases hFind
    refine ⟨wellSized_pixelFb, ?_⟩
    dsimp only
    rw [hClip]
    exact ⟨⟨by decide, by decide, by decide⟩, hCarried⟩
  have hStep₄ : ScreenStep Env.onePixel mipi arrives
      (w₂, black) (.event whiteReport 0)
      (w₃, painted arrives w₂ black whiteReport) :=
    ⟨hDirty, hApart₃, rfl⟩
  exact ⟨w₃, painted arrives w₂ black whiteReport,
    .snoc (.snoc (.snoc (.snoc .nil trivial hStep₁) trivial
      hStep₂) trivial hStep₃) hShowable hStep₄, hWhite⟩

theorem grants_onePixel : Env.onePixel.Grants :=
  { toDelivers := ⟨fun _ => rfl, fun _ => rfl, fun _ => rfl⟩
    dmabuf := fun _ => ⟨rfl, rfl, rfl, rfl, rfl⟩
    screens := by
      intro n size hSize
      cases hSize
      decide }

end Utinydrm

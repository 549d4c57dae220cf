import Waypipe.Tracking.Actions
import Waypipe.Tracking.Process

/-!
# Pixels of shared memory buffers

A buffer of a format with one plane has its pixels in rows of `stride` bytes.  When it is created,
the end that `extent_for_linear_buffer` computes must lie in the pool: the end of as many strides as
there are rows, or of one row if that is longer.  The last row ends later than that when the rows
overlap, that is, when there are several of them and they are longer than a positive stride
(`shm_pixels_iff`).
-/

namespace Waypipe

open Wayland LeBytes List

/-! ## Extents -/

/-- What is checked of a `wl_shm` buffer apart from its size, for the types of the request's
arguments. -/
structure ObjWlBufferShm.Checked (info : ObjWlBufferShm) : Prop where
  offset : 0 ≤ info.offset ∧ info.offset < 2 ^ 31
  width : 0 < info.width ∧ info.width < 2 ^ 31
  height : 0 < info.height ∧ info.height < 2 ^ 31
  stride : 0 ≤ info.stride ∧ info.stride < 2 ^ 31
  format : info.format < 2 ^ 32

/-- A layout with one plane that is not subsampled. -/
structure FormatLayout.Plain (layout : FormatLayout) (bpp : Nat) : Prop where
  single : layout.others = []
  bpt : layout.first.bpt = bpp
  hsub : layout.first.hsub = 1
  vsub : layout.first.vsub = 1

variable (info : ObjWlBufferShm)

/-- The place in the pool of a byte of a pixel. -/
def ObjWlBufferShm.pixelByte (bpp x y k : Nat) : Nat :=
  info.offset.toNat + y * info.stride.toNat + x * bpp + k

/-- The end that is compared with the size of the pool. -/
def ObjWlBufferShm.stop (bpp : Nat) : Nat :=
  info.offset.toNat + max (info.height.toNat * info.stride.toNat) (info.width.toNat * bpp)

theorem bpt_le {format : Nat} {layout : FormatLayout} (h : getShmFormatLayout format = some layout) :
    layout.first.bpt ≤ 8 := by
  have hnamed : ∀ f : WlShmFormat, ∀ l ∈ f.layout, l.first.bpt ≤ 8 := by
    intro f l hl
    cases f <;> cases hl <;> decide
  unfold getShmFormatLayout at h
  split at h
  · cases h
    decide
  · split at h
    · cases h
      decide
    · obtain ⟨f, -, hf⟩ := Option.bind_eq_some_iff.mp h
      exact hnamed f layout hf

section Extent

variable {info : ObjWlBufferShm} {layout : FormatLayout} {bpp : Nat}

theorem ceildiv_mul_self {a b : Nat} (hb : 0 < b) : ceildiv (a * b) (b * 1) = a := by
  unfold ceildiv
  rw [Nat.mul_one, Nat.mul_comm a b, Nat.mul_add_div hb, Nat.div_eq_of_lt (by omega), Nat.add_zero]

theorem ceildiv_one (a : Nat) : ceildiv a 1 = a := by
  unfold ceildiv
  rw [Nat.sub_self, Nat.add_zero, Nat.div_one]

theorem asU64_of_nonneg {n : Int} (h : 0 ≤ n) (hlt : n < 2 ^ 31) : asU64 n = n.toNat := by
  unfold asU64
  rw [Int.emod_eq_of_lt h (by omega)]

theorem usizeOpt_of_lt {n : Nat} (h : n < 2 ^ 64) : usizeOpt n = some n :=
  if_pos (show n ≤ 2 ^ 64 - 1 by omega)

/-- The bounds of the numbers of a buffer, as far as overflow is concerned. -/
theorem ObjWlBufferShm.Checked.products (h : info.Checked) (hbpp : bpp ≤ 8) :
    info.height.toNat * info.stride.toNat < 2 ^ 62 ∧ info.stride.toNat * bpp < 2 ^ 34 ∧
      info.width.toNat * bpp < 2 ^ 34 := by
  have hh : info.height.toNat < 2 ^ 31 := by have := h.height; omega
  have hs : info.stride.toNat < 2 ^ 31 := by have := h.stride; omega
  have hw : info.width.toNat < 2 ^ 31 := by have := h.width; omega
  refine ⟨?_, ?_, ?_⟩
  · exact (Nat.mul_lt_mul'' hh hs).trans_eq (by decide)
  · exact (Nat.mul_le_mul_left _ hbpp).trans_lt (by omega)
  · exact (Nat.mul_le_mul_left _ hbpp).trans_lt (by omega)

theorem extentForLinearBuffer_plain (h : info.Checked) (hplain : layout.Plain bpp) (hbpp : bpp ≤ 8) :
    extentForLinearBuffer info layout = .ok (some (info.offset.toNat, info.stop bpp)) := by
  obtain ⟨hhs, hsb, hwb⟩ := h.products hbpp
  have hoffset := h.offset
  have hpos : 0 < bpp := hplain.bpt ▸ layout.first.positive.1
  have hplane : extendByPlane info layout.first info.stride.toNat (info.offset.toNat, 0) layout.first =
      some (info.offset.toNat + info.height.toNat * info.stride.toNat, info.width.toNat * bpp) := by
    unfold extendByPlane
    rw [hplain.bpt, hplain.hsub, hplain.vsub, usizeOpt_of_lt (by omega)]
    simp only [Option.bind_eq_bind, Option.bind_some, ceildiv_mul_self hpos, ceildiv_one]
    rw [asU64_of_nonneg h.width.1.le h.width.2, asU64_of_nonneg h.height.1.le h.height.2,
      usizeOpt_of_lt (by omega), Option.bind_some, usizeOpt_of_lt (by omega), Option.bind_some,
      usizeOpt_of_lt (by omega), Option.bind_some, Nat.zero_max]
    rfl
  unfold extentForLinearBuffer
  rw [assert_of (by simpa using h.offset.1), Res.ok_bind, assert_of (by
    simp only [Bool.and_eq_true, decide_eq_true_eq]
    exact ⟨⟨h.stride.1, h.width.1⟩, h.height.1⟩), Res.ok_bind]
  have hstride := h.stride
  simp only [hplain.hsub, Nat.mul_one, FormatLayout.planes, hplain.single]
  rw [usizeOpt_of_lt (by omega)]
  simp only [Option.bind_eq_bind, Option.bind_some, foldlM_cons, foldlM_nil, hplane, Option.pure_def]
  rw [usizeOpt_of_lt (by omega), Option.bind_some]
  unfold ObjWlBufferShm.stop
  rw [← Nat.add_max_add_left]
  rfl

theorem damageForEntireBuffer_plain (h : info.Checked)
    (hlayout : getShmFormatLayout info.format = some layout)
    (hplain : layout.Plain bpp) :
    ∃ hi, damageForEntireBuffer info = .ok (64 * (info.offset.toNat / 64), hi) ∧ info.stop bpp ≤ hi := by
  have hbpp : bpp ≤ 8 := hplain.bpt ▸ bpt_le hlayout
  obtain ⟨hhs, hsb, hwb⟩ := h.products hbpp
  have hoffset := h.offset
  unfold damageForEntireBuffer
  dsimp only
  rw [hlayout]
  dsimp only
  rw [extentForLinearBuffer_plain h hplain hbpp, Res.ok_bind]
  refine ⟨_, rfl, ?_⟩
  have hmin : min (info.stop bpp) (64 * (USIZE_MAX / 64)) = info.stop bpp := by
    apply Nat.min_eq_left
    unfold ObjWlBufferShm.stop USIZE_MAX
    omega
  rw [hmin]
  exact le_roundUp _ (by decide)

/-- The rows do not overlap, or there is only one place for them. -/
def ObjWlBufferShm.RowsFit (bpp : Nat) : Prop :=
  info.height = 1 ∨ info.stride = 0 ∨ info.width * bpp ≤ info.stride

theorem pixelByte_lt_stop (hfit : info.RowsFit bpp) {x y k : Nat} (hx : (x : Int) < info.width)
    (hy : (y : Int) < info.height) (hk : k < bpp) : info.pixelByte bpp x y k < info.stop bpp := by
  have hrow : x * bpp + k < info.width.toNat * bpp := by
    have hx' : x + 1 ≤ info.width.toNat := by omega
    have := Nat.mul_le_mul_right bpp hx'
    rw [Nat.add_mul, Nat.one_mul] at this
    omega
  have hrows : (y + 1) * info.stride.toNat ≤ info.height.toNat * info.stride.toNat :=
    Nat.mul_le_mul_right _ (by omega)
  rw [Nat.add_mul, Nat.one_mul] at hrows
  unfold ObjWlBufferShm.pixelByte ObjWlBufferShm.stop
  rcases hfit with hone | hzero | hlong
  · obtain rfl : y = 0 := by omega
    omega
  · have hstride : info.stride.toNat = 0 := by omega
    rw [hstride, Nat.mul_zero, Nat.mul_zero]
    omega
  · have hlong' : info.width.toNat * bpp ≤ info.stride.toNat := by
      by_cases hw : 0 ≤ info.width
      · have : ((info.width.toNat * bpp : Nat) : Int) ≤ info.stride := by
          rw [Nat.cast_mul, Int.toNat_of_nonneg hw]
          exact hlong
        omega
      · omega
    omega

/-- Otherwise the last byte of the last pixel is not before the end that is checked. -/
theorem stop_le_pixelByte (h : info.Checked) (hpos : 0 < bpp) (hfit : ¬ info.RowsFit bpp) :
    info.stop bpp ≤ info.pixelByte bpp (info.width.toNat - 1) (info.height.toNat - 1) (bpp - 1) := by
  obtain ⟨hone, hrest⟩ := not_or.mp hfit
  obtain ⟨hzero, hlong⟩ := not_or.mp hrest
  have hw := h.width
  have hh := h.height
  have hs := h.stride
  have hlong' : info.stride.toNat < info.width.toNat * bpp := by
    have : info.stride < ((info.width.toNat * bpp : Nat) : Int) := by
      rw [Nat.cast_mul, Int.toNat_of_nonneg hw.1.le]
      exact Int.not_le.mp hlong
    omega
  obtain ⟨w, hw'⟩ : ∃ w, info.width.toNat = w + 1 := ⟨info.width.toNat - 1, by omega⟩
  obtain ⟨n, hn⟩ : ∃ n, info.height.toNat = n + 2 := ⟨info.height.toNat - 2, by omega⟩
  unfold ObjWlBufferShm.pixelByte ObjWlBufferShm.stop
  rw [hw'] at hlong' ⊢
  rw [hn, show n + 2 - 1 = n + 1 from rfl, show w + 1 - 1 = w from rfl]
  have hrows : (n + 2) * info.stride.toNat = (n + 1) * info.stride.toNat + info.stride.toNat := by ring
  have hbytes : (w + 1) * bpp = w * bpp + bpp := by ring
  have hfirst : info.stride.toNat ≤ (n + 1) * info.stride.toNat := Nat.le_mul_of_pos_left _ (by omega)
  omega

end Extent

/-! ## Requests -/

/-- A request to create a buffer in a pool of the given size. -/
structure CreateBuffer (msg : WaylandMsg) (c : Ctx) (info : ObjWlBufferShm) (size : Nat) : Prop where
  isReq : c.isReq = true
  opcode : WaylandMsg.opcode msg = 0
  /-- The object is a pool, whose file has the size. -/
  pool : ∃ pool sfd f, c.glob.objects.lookup msg.objectId =
      some { objType := .wlShmPool, extra := .wlShmPool pool } ∧
    c.glob.sfds[pool.buffer]? = some sfd ∧ sfd.data = .file f ∧ f.bufferSize = size
  args : ∃ bufferId, parseReqWlShmPoolCreateBuffer msg =
    .ok (bufferId, info.offset, info.width, info.height, info.stride, info.format)

/-- All bytes of all pixels are in the pool and in what is damaged with the whole buffer. -/
def ObjWlBufferShm.PixelsInPool (bpp size : Nat) : Prop :=
  ∀ x y k : Nat, (x : Int) < info.width → (y : Int) < info.height → k < bpp →
    info.pixelByte bpp x y k < size ∧ ∃ lo hi, damageForEntireBuffer info = .ok (lo, hi) ∧
      lo ≤ info.pixelByte bpp x y k ∧ info.pixelByte bpp x y k < hi

section Requests

variable {sys : System} {msg : WaylandMsg} {c c' : Ctx} {info : ObjWlBufferShm} {size : Nat}

theorem CreateBuffer.handler (h : CreateBuffer msg c info size) (sys : System) :
    ∃ q : Request, q.msg = msg ∧ q.objectId = msg.objectId ∧
      dispatch sys msg c = wlShmPoolCreateBuffer q := by
  obtain ⟨pool, sfd, f, hobj, -⟩ := h.pool
  obtain ⟨meth, hmeth⟩ : ∃ meth, WaylandInterface.method .wlShmPool (.request 0) = some meth := ⟨_, rfl⟩
  have hm : methodOf msg c = some { intf := .wlShmPool, id := .request 0, meth } := by
    unfold methodOf
    rw [hobj]
    simp only [Option.bind_eq_bind, Option.bind_some, h.isReq, if_true, h.opcode, hmeth]
    rfl
  refine ⟨requestOf msg c meth, rfl, rfl, ?_⟩
  unfold dispatch
  rw [hm]
  rfl

/-- A pool that is too small is refused. -/
theorem CreateBuffer.accepted (h : CreateBuffer msg c info size)
    (hrun : processWayMsg sys msg c = .ok (.done, c')) : poolTooSmall info size = .ok false := by
  obtain ⟨⟨g, out⟩, t⟩ := c
  obtain ⟨q, hq, hid, hdispatch⟩ := h.handler sys
  obtain ⟨pool, sfd, f, hobj, hsfd, hdata, rfl⟩ := h.pool
  obtain ⟨bufferId, hargs⟩ := h.args
  have hens : (wlShmPoolCreateBuffer q).Ensures ⟨⟨g, out⟩, t⟩
      fun p _ => p = .done → poolTooSmall info f.bufferSize = .ok false := by
    refine Handler.Ensures.needs_iff.mpr ⟨fun _ => Handler.Ensures.act_iff.mpr ?_, fun _ h => by cases h⟩
    simp only [Post.bind_iff, post_copyMsg, post_res, hq, hargs]
    rintro out' - _ ⟨⟩
    simp only [Post.ite_iff, post_res, fail_eq_ok, false_implies, implies_true, true_and,
      Post.bind_iff, post_act, post_extraOf, WpExtra.wlShmPool?_eq_some, post_readSfd]
    rintro hsize hoffset hstride _ pool' rfl hpool sfd' hsfd'
    obtain rfl : pool = pool' := by
      rw [hid, Globals.extra?, hobj] at hpool
      cases hpool
      rfl
    obtain rfl : sfd = sfd' := Option.some.inj (hsfd.symm.trans hsfd')
    rw [hdata]
    simp only [Post.bind_iff, Post.pure_iff, post_res, Post.ite_iff, fail_eq_ok, false_implies,
      implies_true, true_and]
    intro small hsmall hfalse
    have hinfo : ObjWlBufferShm.mk (max info.width 0) (max info.height 0) info.format info.offset
        info.stride = info := by
      rw [Int.max_eq_left (by omega), Int.max_eq_left (by omega)]
    rw [hinfo] at hsmall
    cases small with
    | true => exact absurd rfl hfalse
    | false =>
      simp only [post_act, post_getGlob, post_insertNewObject, post_modifyGlob]
      exact fun _ _ => hsmall
  have hd := dispatch_of_processWayMsg sys hrun
  rw [hdispatch] at hd
  exact hens _ _ hd rfl

end Requests

/-! ## A pool of any size -/

/-- The request with the given arguments, for the new id 3, of the object 2. -/
def createBufferBytes : List UInt8 :=
  u32le 2 ++ (u32le (32 * 2 ^ 16) ++ (writeObj 3 ++ (writeI32 info.offset ++ (writeI32 info.width ++
    (writeI32 info.height ++ (writeI32 info.stride ++ (writeU32 info.format ++ [])))))))

theorem drop_createBufferBytes :
    (createBufferBytes info).drop 4 = u32le (32 * 2 ^ 16) ++ (createBufferBytes info).drop 8 := by
  unfold createBufferBytes
  rw [drop_left' (length_u32le 2), show (8 : Nat) = 4 + 4 from rfl, ← drop_drop,
    drop_left' (length_u32le 2), drop_left' (length_u32le _)]

def createBufferMsg : WaylandMsg where
  bytes := createBufferBytes info
  aligned := by simp [createBufferBytes]
  hasHeader := by simp [createBufferBytes]
  framed := by
    rw [drop_createBufferBytes, take_left' (length_u32le _), u32le, leNat_leBytes]
    simp [createBufferBytes]

/-- A state on the application side with the pool 2 of the given size. -/
def poolCtx (size : Nat) : Ctx where
  core := {
    glob := { Globals.start false .plain with
      sfds := [{
        remoteId := 1
        onlyHere := false
        data := .file {
          bufferSize := size
          remoteBufsize := size
          readonly := false
          damage := .intervals []
          core := none
          fd := 0
          pendingApplyTasks := 0 } }]
      objects := AList.singleton 2 { objType := .wlShmPool, extra := .wlShmPool { buffer := 0 } } }
    out := .empty 32 }
  transl := .fromWayland [] []

theorem objectId_createBufferMsg : (createBufferMsg info).objectId = 2 := by
  show leNat ((createBufferBytes info).take 4) = 2
  unfold createBufferBytes
  rw [take_left' (length_u32le 2)]
  rfl

theorem opcode_createBufferMsg : WaylandMsg.opcode (createBufferMsg info) = 0 := by
  show leNat (((createBufferBytes info).drop 4).take 4) % 2 ^ 11 = 0
  rw [drop_createBufferBytes, take_left' (length_u32le _)]
  rfl

theorem parse_createBufferMsg {info : ObjWlBufferShm} (h : info.Checked) :
    parseReqWlShmPoolCreateBuffer (createBufferMsg info) =
      .ok (3, info.offset, info.width, info.height, info.stride, info.format) := by
  have hoffset := h.offset
  have hwidth := h.width
  have hheight := h.height
  have hstride := h.stride
  have hdrop : (createBufferBytes info).drop 8 = writeObj 3 ++ (writeI32 info.offset ++
      (writeI32 info.width ++ (writeI32 info.height ++ (writeI32 info.stride ++
        (writeU32 info.format ++ []))))) := by
    have h4 := drop_createBufferBytes info
    unfold createBufferBytes at h4 ⊢
    rw [drop_left' (length_u32le 2)] at h4
    exact (append_cancel_left h4).symm
  unfold parseReqWlShmPoolCreateBuffer parseArgs parseMsg
  rw [show (createBufferMsg info).bytes = createBufferBytes info from rfl, hdrop,
    if_neg (by simp [createBufferBytes])]
  simp only [bind, StateT.bind, Except.bind, parseObj, writeObj]
  rw [parseU32_writeU32 (by decide)]
  dsimp only
  rw [parseI32_writeI32 (by omega) (by omega)]
  dsimp only
  rw [parseI32_writeI32 (by omega) (by omega)]
  dsimp only
  rw [parseI32_writeI32 (by omega) (by omega)]
  dsimp only
  rw [parseI32_writeI32 (by omega) (by omega)]
  dsimp only
  rw [parseU32_writeU32 h.format]
  rfl

theorem createBuffer_poolCtx {info : ObjWlBufferShm} (h : info.Checked) (size : Nat) :
    CreateBuffer (createBufferMsg info) (poolCtx size) info size where
  isReq := rfl
  opcode := opcode_createBufferMsg info
  pool := by
    rw [objectId_createBufferMsg]
    exact ⟨{ buffer := 0 }, _, _, rfl, rfl, rfl, rfl⟩
  args := ⟨3, parse_createBufferMsg h⟩

/-- A pool that is large enough is accepted. -/
theorem poolCtx_accepts (sys : System) {info : ObjWlBufferShm} {size : Nat} (h : info.Checked)
    (hsmall : poolTooSmall info size = .ok false) :
    ∃ c', processWayMsg sys (createBufferMsg info) (poolCtx size) = .ok (.done, c') := by
  obtain ⟨q, hq, hid, hdispatch⟩ := (createBuffer_poolCtx h size).handler sys
  have hspace : (poolCtx size).hasSpace q.msg.length 0 := by
    rw [hq]
    exact ⟨by simp [createBufferMsg, createBufferBytes, WaylandMsg.length, poolCtx, Output.space,
      Output.empty],
      Nat.zero_le _⟩
  have hreturns : (wlShmPoolCreateBuffer q).Returns (poolCtx size) fun p _ => p = .done := by
    refine .needs hspace (.act ?_)
    simp only [Yields.bind_iff]
    refine yields_copyMsg hspace.1 fun out => ?_
    rw [hq]
    refine yields_res.mpr ⟨_, parse_createBufferMsg h, ?_⟩
    have hoffset := h.offset
    have hwidth := h.width
    have hheight := h.height
    have hstride := h.stride
    have hinfo : ObjWlBufferShm.mk (max info.width 0) (max info.height 0) info.format info.offset
        info.stride = info := by
      rw [Int.max_eq_left (by omega), Int.max_eq_left (by omega)]
    dsimp only
    rw [if_neg (by omega), if_neg (by omega), if_neg (by omega), hid, objectId_createBufferMsg]
    simp only [Yields.bind_iff, yields_act, yields_extraOf, Globals.extraOf_eq_ok, yields_readSfd]
    refine ⟨{ buffer := 0 }, ⟨_, rfl, rfl⟩, _, rfl, ?_⟩
    simp only [hinfo, Yields.bind_iff, Yields.pure_iff, yields_res]
    refine ⟨false, hsmall, ?_⟩
    rw [if_neg (by decide)]
    simp only [Yields.bind_iff, yields_act, yields_getGlob, insertNewObject, yields_modifyGlob]
    exact Yields.pure_iff.mpr trivial
  obtain ⟨p, c', hrun, rfl⟩ := hreturns
  refine ⟨c', ?_⟩
  unfold processWayMsg
  rw [if_neg (by simp [poolCtx, Transl.outgoing]), hdispatch]
  exact hrun

/-- For a buffer of a known format with one plane, the pixels of every buffer that is accepted are in its
pool, and damaged with the whole buffer, if and only if the rows do not overlap. -/
theorem shm_pixels_iff (sys : System) (info : ObjWlBufferShm) (layout : FormatLayout) (bpp : Nat)
    (h : info.Checked) (hlayout : getShmFormatLayout info.format = some layout)
    (hplain : layout.Plain bpp) :
    (∀ msg c c' size, CreateBuffer msg c info size → processWayMsg sys msg c = .ok (.done, c') →
      info.PixelsInPool bpp size) ↔ info.RowsFit bpp := by
  have hbpp : bpp ≤ 8 := hplain.bpt ▸ bpt_le hlayout
  have hpos : 0 < bpp := hplain.bpt ▸ layout.first.positive.1
  have hcheck (size : Nat) : poolTooSmall info size = .ok (decide (size < info.stop bpp)) := by
    unfold poolTooSmall
    rw [hlayout]
    dsimp only
    rw [extentForLinearBuffer_plain h hplain hbpp]
    rfl
  constructor
  · intro hsound
    by_contra hfit
    obtain ⟨c', hrun⟩ := poolCtx_accepts sys h
      ((hcheck (info.stop bpp)).trans (by rw [decide_eq_false (Nat.lt_irrefl _)]))
    have hwidth := h.width
    have hheight := h.height
    have hin := (hsound _ _ _ _ (createBuffer_poolCtx h _) hrun (info.width.toNat - 1)
      (info.height.toNat - 1) (bpp - 1) (by omega) (by omega) (by omega)).1
    exact Nat.not_lt.mpr (stop_le_pixelByte h hpos hfit) hin
  · intro hfit msg c c' size hreq hrun x y k hx hy hk
    have hlt := pixelByte_lt_stop hfit hx hy hk
    have hsize : ¬ size < info.stop bpp := by
      have haccepted := hreq.accepted hrun
      rw [hcheck size] at haccepted
      simpa using haccepted
    obtain ⟨hi, hdamage, hhi⟩ := damageForEntireBuffer_plain h hlayout hplain
    refine ⟨by omega, _, hi, hdamage, ?_, by omega⟩
    have hdiv := Nat.div_mul_le_self info.offset.toNat 64
    unfold ObjWlBufferShm.pixelByte
    omega

/-- Two rows of two pixels, without a gap, in a pool of their size. -/
theorem shm_pixels_packed :
    (∃ c', processWayMsg .headless (createBufferMsg ⟨2, 2, 0, 0, 8⟩) (poolCtx 16) = .ok (.done, c')) ∧
    (⟨2, 2, 0, 0, 8⟩ : ObjWlBufferShm).PixelsInPool 4 16 := by
  have h : (⟨2, 2, 0, 0, 8⟩ : ObjWlBufferShm).Checked :=
    ⟨by decide, by decide, by decide, by decide, by decide⟩
  have hsmall : poolTooSmall ⟨2, 2, 0, 0, 8⟩ 16 = .ok false := by decide +kernel
  obtain ⟨c', hrun⟩ := poolCtx_accepts .headless h hsmall
  refine ⟨⟨c', hrun⟩, ?_⟩
  exact (shm_pixels_iff .headless ⟨2, 2, 0, 0, 8⟩ ⟨.of 4 1 1 1 1, []⟩ 4 h (by decide +kernel)
      ⟨rfl, rfl, rfl, rfl⟩).mpr
    (.inr (.inr (by decide))) _ _ c' 16 (createBuffer_poolCtx h 16) hrun

/-- Two rows of 32 pixels that start four bytes apart: the pool has room for one of them, and the end of
the second is neither in the pool nor damaged. -/
theorem overlapping_rows_accepted :
    (processWayMsg .headless (createBufferMsg ⟨32, 2, 0, 0, 4⟩) (poolCtx 128)).map Prod.fst = .ok .done ∧
    (⟨32, 2, 0, 0, 4⟩ : ObjWlBufferShm).pixelByte 4 31 1 3 = 131 ∧
    damageForEntireBuffer ⟨32, 2, 0, 0, 4⟩ = .ok (0, 128) := by
  decide +kernel

end Waypipe

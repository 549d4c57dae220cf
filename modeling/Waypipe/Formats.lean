import Waypipe.Util

/-!
# Pixel formats

The formats of `wl_shm` and the layout of their planes in memory.
-/

namespace Waypipe

inductive WlShmFormat where
  | argb8888 | xrgb8888 | c8 | rgb332 | bgr233 | xrgb4444 | xbgr4444 | rgbx4444 | bgrx4444
  | argb4444 | abgr4444 | rgba4444 | bgra4444 | xrgb1555 | xbgr1555 | rgbx5551 | bgrx5551
  | argb1555 | abgr1555 | rgba5551 | bgra5551 | rgb565 | bgr565 | rgb888 | bgr888 | xbgr8888
  | rgbx8888 | bgrx8888 | abgr8888 | rgba8888 | bgra8888 | xrgb2101010 | xbgr2101010 | rgbx1010102
  | bgrx1010102 | argb2101010 | abgr2101010 | rgba1010102 | bgra1010102 | yuyv | yvyu | uyvy
  | vyuy | ayuv | nv12 | nv21 | nv16 | nv61 | yuv410 | yvu410 | yuv411 | yvu411 | yuv420 | yvu420
  | yuv422 | yvu422 | yuv444 | yvu444 | r8 | r16 | rg88 | gr88 | rg1616 | gr1616 | xrgb16161616f
  | xbgr16161616f | argb16161616f | abgr16161616f | xyuv8888 | vuy888 | vuy101010 | y210 | y212
  | y216 | y410 | y412 | y416 | xvyu2101010 | xvyu1216161616 | xvyu16161616 | y0l0 | x0l0 | y0l2
  | x0l2 | yuv4208bit | yuv42010bit | xrgb8888A8 | xbgr8888A8 | rgbx8888A8 | bgrx8888A8 | rgb888A8
  | bgr888A8 | rgb565A8 | bgr565A8 | nv24 | nv42 | p210 | p010 | p012 | p016
  | axbxgxrx106106106106 | nv15 | q410 | q401 | xrgb16161616 | xbgr16161616 | argb16161616
  | abgr16161616 | c1 | c2 | c4 | d1 | d2 | d4 | d8 | r1 | r2 | r4 | r10 | r12 | avuy8888
  | xvuy8888 | p030
  deriving DecidableEq, Repr

namespace WlShmFormat

/-- The code of a format; other than for the first two it spells a name in ASCII. -/
def code : WlShmFormat → Nat
  | argb8888 => 0
  | xrgb8888 => 1
  | c8 => 0x20203843
  | rgb332 => 0x38424752
  | bgr233 => 0x38524742
  | xrgb4444 => 0x32315258
  | xbgr4444 => 0x32314258
  | rgbx4444 => 0x32315852
  | bgrx4444 => 0x32315842
  | argb4444 => 0x32315241
  | abgr4444 => 0x32314241
  | rgba4444 => 0x32314152
  | bgra4444 => 0x32314142
  | xrgb1555 => 0x35315258
  | xbgr1555 => 0x35314258
  | rgbx5551 => 0x35315852
  | bgrx5551 => 0x35315842
  | argb1555 => 0x35315241
  | abgr1555 => 0x35314241
  | rgba5551 => 0x35314152
  | bgra5551 => 0x35314142
  | rgb565 => 0x36314752
  | bgr565 => 0x36314742
  | rgb888 => 0x34324752
  | bgr888 => 0x34324742
  | xbgr8888 => 0x34324258
  | rgbx8888 => 0x34325852
  | bgrx8888 => 0x34325842
  | abgr8888 => 0x34324241
  | rgba8888 => 0x34324152
  | bgra8888 => 0x34324142
  | xrgb2101010 => 0x30335258
  | xbgr2101010 => 0x30334258
  | rgbx1010102 => 0x30335852
  | bgrx1010102 => 0x30335842
  | argb2101010 => 0x30335241
  | abgr2101010 => 0x30334241
  | rgba1010102 => 0x30334152
  | bgra1010102 => 0x30334142
  | yuyv => 0x56595559
  | yvyu => 0x55595659
  | uyvy => 0x59565955
  | vyuy => 0x59555956
  | ayuv => 0x56555941
  | nv12 => 0x3231564e
  | nv21 => 0x3132564e
  | nv16 => 0x3631564e
  | nv61 => 0x3136564e
  | yuv410 => 0x39565559
  | yvu410 => 0x39555659
  | yuv411 => 0x31315559
  | yvu411 => 0x31315659
  | yuv420 => 0x32315559
  | yvu420 => 0x32315659
  | yuv422 => 0x36315559
  | yvu422 => 0x36315659
  | yuv444 => 0x34325559
  | yvu444 => 0x34325659
  | r8 => 0x20203852
  | r16 => 0x20363152
  | rg88 => 0x38384752
  | gr88 => 0x38385247
  | rg1616 => 0x32334752
  | gr1616 => 0x32335247
  | xrgb16161616f => 0x48345258
  | xbgr16161616f => 0x48344258
  | argb16161616f => 0x48345241
  | abgr16161616f => 0x48344241
  | xyuv8888 => 0x56555958
  | vuy888 => 0x34325556
  | vuy101010 => 0x30335556
  | y210 => 0x30313259
  | y212 => 0x32313259
  | y216 => 0x36313259
  | y410 => 0x30313459
  | y412 => 0x32313459
  | y416 => 0x36313459
  | xvyu2101010 => 0x30335658
  | xvyu1216161616 => 0x36335658
  | xvyu16161616 => 0x38345658
  | y0l0 => 0x304c3059
  | x0l0 => 0x304c3058
  | y0l2 => 0x324c3059
  | x0l2 => 0x324c3058
  | yuv4208bit => 0x38305559
  | yuv42010bit => 0x30315559
  | xrgb8888A8 => 0x38415258
  | xbgr8888A8 => 0x38414258
  | rgbx8888A8 => 0x38415852
  | bgrx8888A8 => 0x38415842
  | rgb888A8 => 0x38413852
  | bgr888A8 => 0x38413842
  | rgb565A8 => 0x38413552
  | bgr565A8 => 0x38413542
  | nv24 => 0x3432564e
  | nv42 => 0x3234564e
  | p210 => 0x30313250
  | p010 => 0x30313050
  | p012 => 0x32313050
  | p016 => 0x36313050
  | axbxgxrx106106106106 => 0x30314241
  | nv15 => 0x3531564e
  | q410 => 0x30313451
  | q401 => 0x31303451
  | xrgb16161616 => 0x38345258
  | xbgr16161616 => 0x38344258
  | argb16161616 => 0x38345241
  | abgr16161616 => 0x38344241
  | c1 => 0x20203143
  | c2 => 0x20203243
  | c4 => 0x20203443
  | d1 => 0x20203144
  | d2 => 0x20203244
  | d4 => 0x20203444
  | d8 => 0x20203844
  | r1 => 0x20203152
  | r2 => 0x20203252
  | r4 => 0x20203452
  | r10 => 0x20303152
  | r12 => 0x20323152
  | avuy8888 => 0x59555641
  | xvuy8888 => 0x59555658
  | p030 => 0x30333050

def list : List WlShmFormat := (List.range 123).map ofNat

def tryFrom (v : Nat) : Option WlShmFormat := list.find? fun f => f.code == v

end WlShmFormat

/-- Layout of one plane; all numbers are positive. -/
structure PlaneLayout where
  /-- Bytes per (subsampled) texel block. -/
  bpt : Nat
  /-- Horizontal subsampling ratio (width / texel block count). -/
  hsub : Nat
  /-- Vertical subsampling ratio (height / texel block count). -/
  vsub : Nat
  /-- Width of a texel block in pixels. -/
  htex : Nat
  /-- Height of a texel block in pixels. -/
  vtex : Nat
  positive : 0 < bpt ∧ 0 < hsub ∧ 0 < vsub ∧ 0 < htex ∧ 0 < vtex
  deriving DecidableEq

def PlaneLayout.of (bpt hsub vsub htex vtex : Nat)
    (positive : 0 < bpt ∧ 0 < hsub ∧ 0 < vsub ∧ 0 < htex ∧ 0 < vtex := by decide) : PlaneLayout :=
  ⟨bpt, hsub, vsub, htex, vtex, positive⟩

/-- The planes of a format: there is at least one. -/
structure FormatLayout where
  first : PlaneLayout
  others : List PlaneLayout
  deriving DecidableEq

def FormatLayout.planes (layout : FormatLayout) : List PlaneLayout := layout.first :: layout.others

def fourcc (a b c d : Char) : Nat := a.toNat + b.toNat * 2 ^ 8 + c.toNat * 2 ^ 16 + d.toNat * 2 ^ 24

/-- Wayland and DRM differ in the codes of two formats only. -/
def drmToWayland (drmFormat : Nat) : Nat :=
  if drmFormat = fourcc 'A' 'R' '2' '4' then WlShmFormat.code .argb8888
  else if drmFormat = fourcc 'X' 'R' '2' '4' then WlShmFormat.code .xrgb8888
  else drmFormat

def SIMPLE_1 : PlaneLayout := .of 1 1 1 1 1

def SIMPLE_2 : PlaneLayout := .of 2 1 1 1 1

/-- The layout of a format with a `wl_shm` name, if it has a linear layout. -/
def WlShmFormat.layout : WlShmFormat → Option FormatLayout
  | r8 | c8 | d8 | rgb332 | bgr233 => some ⟨SIMPLE_1, []⟩
  | xrgb4444 | xbgr4444 | rgbx4444 | bgrx4444 | argb4444 | abgr4444 | rgba4444 | bgra4444
  | xrgb1555 | xbgr1555 | rgbx5551 | bgrx5551 | argb1555 | abgr1555 | rgba5551 | bgra5551
  | rgb565 | bgr565 | r10 | r12 | r16 | rg88 | gr88 => some ⟨SIMPLE_2, []⟩
  | rgb888 | bgr888 | vuy888 => some ⟨.of 3 1 1 1 1, []⟩
  | argb8888 | xrgb8888 | xbgr8888 | rgbx8888 | bgrx8888 | abgr8888 | rgba8888 | bgra8888
  | xrgb2101010 | xbgr2101010 | rgbx1010102 | bgrx1010102 | argb2101010 | abgr2101010
  | rgba1010102 | bgra1010102 | ayuv | avuy8888 | xvuy8888 | xyuv8888 | xvyu2101010 | rg1616
  | gr1616 | y410 => some ⟨.of 4 1 1 1 1, []⟩
  | xrgb16161616f | xbgr16161616f | argb16161616f | abgr16161616f | xrgb16161616 | xbgr16161616
  | argb16161616 | abgr16161616 | axbxgxrx106106106106 | xvyu1216161616 | xvyu16161616 | y412
  | y416 => some ⟨.of 8 1 1 1 1, []⟩
  | r1 | c1 | d1 => some ⟨.of 1 8 1 8 1, []⟩
  | r2 | c2 | d2 => some ⟨.of 1 4 1 4 1, []⟩
  | r4 | c4 | d4 => some ⟨.of 1 2 1 2 1, []⟩
  | yuyv | yvyu | uyvy | vyuy => some ⟨.of 4 2 1 2 1, []⟩
  | y210 | y212 | y216 => some ⟨.of 8 2 1 2 1, []⟩
  | y0l0 | x0l0 | y0l2 | x0l2 => some ⟨.of 8 2 2 2 2, []⟩
  | rgb565A8 | bgr565A8 => some ⟨SIMPLE_2, [SIMPLE_1]⟩
  | rgb888A8 | bgr888A8 => some ⟨.of 3 1 1 1 1, [SIMPLE_1]⟩
  | xrgb8888A8 | xbgr8888A8 | rgbx8888A8 | bgrx8888A8 => some ⟨.of 4 1 1 1 1, [SIMPLE_1]⟩
  | nv12 | nv21 => some ⟨SIMPLE_1, [.of 2 2 2 1 1]⟩
  | nv16 | nv61 => some ⟨SIMPLE_1, [.of 2 2 1 1 1]⟩
  | nv24 | nv42 => some ⟨SIMPLE_1, [SIMPLE_2]⟩
  | nv15 => some ⟨.of 5 4 1 4 1, [.of 5 4 2 2 1]⟩
  | p210 | p010 | p012 | p016 => some ⟨SIMPLE_2, [.of 4 2 2 1 1]⟩
  | p030 => some ⟨.of 4 3 1 3 1, [.of 8 6 2 3 1]⟩
  | yuv410 | yvu410 => some ⟨SIMPLE_1, [.of 1 4 4 1 1, .of 1 4 4 1 1]⟩
  | yuv411 | yvu411 => some ⟨SIMPLE_1, [.of 1 4 1 1 1, .of 1 4 1 1 1]⟩
  | yuv420 | yvu420 => some ⟨SIMPLE_1, [.of 1 2 2 1 1, .of 1 2 2 1 1]⟩
  | yuv422 | yvu422 => some ⟨SIMPLE_1, [.of 1 2 1 1 1, .of 1 2 1 1 1]⟩
  | yuv444 | yvu444 => some ⟨SIMPLE_1, [SIMPLE_1, SIMPLE_1]⟩
  | q401 | q410 => some ⟨SIMPLE_2, [SIMPLE_2, SIMPLE_2]⟩
  | yuv4208bit | yuv42010bit | vuy101010 => none

/-- Layout of a `wl_shm` or DRM format; two formats have no `wl_shm` name yet. -/
def getShmFormatLayout (format : Nat) : Option FormatLayout :=
  if format = fourcc 'N' 'V' '2' '0' then some ⟨.of 5 4 1 4 1, [.of 5 4 1 2 1]⟩
  else if format = fourcc 'N' 'V' '3' '0' then some ⟨.of 5 4 1 4 1, [.of 5 2 1 2 1]⟩
  else do (← WlShmFormat.tryFrom (drmToWayland format)).layout

end Waypipe

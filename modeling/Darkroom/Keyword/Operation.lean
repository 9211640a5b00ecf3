import Darkroom.Keyword.Basic

/-!
# Arithmetic, filters and distortions

The keyword families of this area, each with the spelling of its values.  The first value of a
family is the one that stands when nothing was set.
-/

namespace Darkroom

/-- Arithmetic on channel values. -/
inductive Evaluation where
  | add | absolute | bitAnd | divide | max | mean | median | min | multiply | bitOr | power
  | assign | subtract | bitXor
deriving DecidableEq, Repr, Inhabited

instance : Keyword Evaluation where
  family := "evaluate"
  all := [.add, .absolute, .bitAnd, .divide, .max, .mean, .median, .min, .multiply, .bitOr,
    .power, .assign, .subtract, .bitXor]
  name
    | .add => "Add"
    | .absolute => "Abs"
    | .bitAnd => "And"
    | .divide => "Divide"
    | .max => "Max"
    | .mean => "Mean"
    | .median => "Median"
    | .min => "Min"
    | .multiply => "Multiply"
    | .bitOr => "Or"
    | .power => "Pow"
    | .assign => "Set"
    | .subtract => "Subtract"
    | .bitXor => "Xor"
  aliases _ := []

/-- Resampling filters. -/
inductive Filter where
  | undefined | point | box | triangle | hermite | hann | hamming | blackman | gaussian
  | quadratic | cubic | catrom | mitchell | lanczos | sinc
deriving DecidableEq, Repr, Inhabited

instance : Keyword Filter where
  family := "filter"
  all := [.undefined, .point, .box, .triangle, .hermite, .hann, .hamming, .blackman, .gaussian,
    .quadratic, .cubic, .catrom, .mitchell, .lanczos, .sinc]
  name
    | .undefined => "Undefined"
    | .point => "Point"
    | .box => "Box"
    | .triangle => "Triangle"
    | .hermite => "Hermite"
    | .hann => "Hann"
    | .hamming => "Hamming"
    | .blackman => "Blackman"
    | .gaussian => "Gaussian"
    | .quadratic => "Quadratic"
    | .cubic => "Cubic"
    | .catrom => "Catrom"
    | .mitchell => "Mitchell"
    | .lanczos => "Lanczos"
    | .sinc => "Sinc"
  aliases
    | .hann => ["Hanning"]
    | _ => []

/-- Reading between pixels. -/
inductive Interpolate where
  | undefined | average | bicubic | bilinear | integer | mesh | nearest | spline
deriving DecidableEq, Repr, Inhabited

instance : Keyword Interpolate where
  family := "interpolate"
  all := [.undefined, .average, .bicubic, .bilinear, .integer, .mesh, .nearest, .spline]
  name
    | .undefined => "Undefined"
    | .average => "Average"
    | .bicubic => "Bicubic"
    | .bilinear => "Bilinear"
    | .integer => "Integer"
    | .mesh => "Mesh"
    | .nearest => "Nearest"
    | .spline => "Spline"
  aliases
    | .nearest => ["NearestNeighbor"]
    | _ => []

/-- What lies outside an image. -/
inductive VirtualPixel where
  | undefined | background | black | edge | gray | mirror | tile | transparent | white
deriving DecidableEq, Repr, Inhabited

instance : Keyword VirtualPixel where
  family := "virtual-pixel"
  all := [.undefined, .background, .black, .edge, .gray, .mirror, .tile, .transparent, .white]
  name
    | .undefined => "Undefined"
    | .background => "Background"
    | .black => "Black"
    | .edge => "Edge"
    | .gray => "Gray"
    | .mirror => "Mirror"
    | .tile => "Tile"
    | .transparent => "Transparent"
    | .white => "White"
  aliases _ := []

/-- Error diffusion when colors are reduced. -/
inductive Dither where
  | floydSteinberg | none | riemersma
deriving DecidableEq, Repr, Inhabited

instance : Keyword Dither where
  family := "dither"
  all := [.floydSteinberg, .none, .riemersma]
  name
    | .floydSteinberg => "FloydSteinberg"
    | .none => "None"
    | .riemersma => "Riemersma"
  aliases _ := []

/-- The kinds of noise that can be added. -/
inductive Noise where
  | uniform | gaussian | impulse | laplacian | multiplicative | poisson | random
deriving DecidableEq, Repr, Inhabited

instance : Keyword Noise where
  family := "noise"
  all := [.uniform, .gaussian, .impulse, .laplacian, .multiplicative, .poisson, .random]
  name
    | .uniform => "Uniform"
    | .gaussian => "Gaussian"
    | .impulse => "Impulse"
    | .laplacian => "Laplacian"
    | .multiplicative => "Multiplicative"
    | .poisson => "Poisson"
    | .random => "Random"
  aliases _ := []

/-- How colors spread from control points. -/
inductive SparseMethod where
  | barycentric | bilinear | shepards | inverse | voronoi
deriving DecidableEq, Repr, Inhabited

instance : Keyword SparseMethod where
  family := "sparse-color"
  all := [.barycentric, .bilinear, .shepards, .inverse, .voronoi]
  name
    | .barycentric => "Barycentric"
    | .bilinear => "Bilinear"
    | .shepards => "Shepards"
    | .inverse => "Inverse"
    | .voronoi => "Voronoi"
  aliases _ := []

/-- The ways to distort an image. -/
inductive Distortion where
  | affine | affineProjection | arc | barrel | bilinear | perspective | polar
  | scaleRotateTranslate | shepards
deriving DecidableEq, Repr, Inhabited

instance : Keyword Distortion where
  family := "distort"
  all := [.affine, .affineProjection, .arc, .barrel, .bilinear, .perspective, .polar,
    .scaleRotateTranslate, .shepards]
  name
    | .affine => "Affine"
    | .affineProjection => "AffineProjection"
    | .arc => "Arc"
    | .barrel => "Barrel"
    | .bilinear => "BilinearForward"
    | .perspective => "Perspective"
    | .polar => "Polar"
    | .scaleRotateTranslate => "ScaleRotateTranslate"
    | .shepards => "Shepards"
  aliases
    | .bilinear => ["Bilinear"]
    | .scaleRotateTranslate => ["SRT"]
    | _ => []

/-- Statistics of a neighbourhood. -/
inductive Statistic where
  | gradient | maximum | mean | median | minimum | mode | nonpeak | standardDeviation
deriving DecidableEq, Repr, Inhabited

instance : Keyword Statistic where
  family := "statistic"
  all := [.gradient, .maximum, .mean, .median, .minimum, .mode, .nonpeak, .standardDeviation]
  name
    | .gradient => "Gradient"
    | .maximum => "Maximum"
    | .mean => "Mean"
    | .median => "Median"
    | .minimum => "Minimum"
    | .mode => "Mode"
    | .nonpeak => "Nonpeak"
    | .standardDeviation => "StandardDeviation"
  aliases _ := []

/-- Operations with a kernel. -/
inductive Morphology where
  | convolve | correlate | erode | dilate | opening | closing | smooth | edgeIn | edgeOut | edge
  | topHat | bottomHat | hitAndMiss | thinning | thicken | distance
deriving DecidableEq, Repr, Inhabited

instance : Keyword Morphology where
  family := "morphology"
  all := [.convolve, .correlate, .erode, .dilate, .opening, .closing, .smooth, .edgeIn, .edgeOut,
    .edge, .topHat, .bottomHat, .hitAndMiss, .thinning, .thicken, .distance]
  name
    | .convolve => "Convolve"
    | .correlate => "Correlate"
    | .erode => "Erode"
    | .dilate => "Dilate"
    | .opening => "Open"
    | .closing => "Close"
    | .smooth => "Smooth"
    | .edgeIn => "EdgeIn"
    | .edgeOut => "EdgeOut"
    | .edge => "Edge"
    | .topHat => "TopHat"
    | .bottomHat => "BottomHat"
    | .hitAndMiss => "HitAndMiss"
    | .thinning => "Thinning"
    | .thicken => "Thicken"
    | .distance => "Distance"
  aliases
    | .hitAndMiss => ["HMT"]
    | _ => []

/-- Functions of channel values. -/
inductive ToneFunction where
  | polynomial | sinusoid | arcsin | arctan
deriving DecidableEq, Repr, Inhabited

instance : Keyword ToneFunction where
  family := "function"
  all := [.polynomial, .sinusoid, .arcsin, .arctan]
  name
    | .polynomial => "Polynomial"
    | .sinusoid => "Sinusoid"
    | .arcsin => "Arcsin"
    | .arctan => "Arctan"
  aliases _ := []

end Darkroom

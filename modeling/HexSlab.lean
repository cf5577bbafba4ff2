import HexSlab.Attempt
import HexSlab.Communicator
import HexSlab.Journal
import HexSlab.Krylov.BiconjugateGradients
import HexSlab.Krylov.ConjugateGradients
import HexSlab.Krylov.Method
import HexSlab.Krylov.MinimalResiduals
import HexSlab.Krylov.Preconditioning
import HexSlab.Krylov.Solve
import HexSlab.Krylov.System
import HexSlab.Layout
import HexSlab.Mesh.Answers
import HexSlab.Mesh.Basic
import HexSlab.Mesh.Connectivity
import HexSlab.Mesh.Coordinates
import HexSlab.Mesh.Error
import HexSlab.Mesh.Face
import HexSlab.Mesh.Geometry
import HexSlab.Mesh.Lattice
import HexSlab.Mesh.NodeSet
import HexSlab.Mesh.Numbering
import HexSlab.Mesh.ParameterText
import HexSlab.Mesh.Report
import HexSlab.Mesh.Slab
import HexSlab.Mesh.Surface
import HexSlab.Numeral.Double
import HexSlab.Numeral.Layout
import HexSlab.Numeral.Length
import HexSlab.Numeral.Shortest
import HexSlab.Numeral.Token
import HexSlab.Numeral.Word
import HexSlab.Operator
import HexSlab.Parameter.List
import HexSlab.Parameter.Value
import HexSlab.Scalar
import HexSlab.Smoother.Chebyshev
import HexSlab.Smoother.ChebyshevParams
import HexSlab.Smoother.ChebyshevReport
import HexSlab.Smoother.Error
import HexSlab.Smoother.Outcome
import HexSlab.Smoother.Relaxation
import HexSlab.Smoother.RelaxationParams
import HexSlab.Smoother.Stats
import HexSlab.Sparse.Constrain
import HexSlab.Sparse.Csr
import HexSlab.Sparse.Laplacian
import HexSlab.Sparse.Triplets
import HexSlab.Spectrum.KeyStream
import HexSlab.Spectrum.Kit
import HexSlab.Spectrum.Lanczos
import HexSlab.Spectrum.Power
import HexSlab.Spectrum.Tridiagonal
import HexSlab.Text.Blank
import HexSlab.Text.Case
import HexSlab.Text.Column
import HexSlab.Text.Split
import HexSlab.Vec
import HexSlab.Proofs.Mesh.Configuration
import HexSlab.Proofs.Mesh.SetterCalls
import HexSlab.Proofs.Words
import HexSlab.Proofs.Mesh.Slabs
import HexSlab.Proofs.Mesh.Corners
import HexSlab.Proofs.Mesh.ExactAnswers
import HexSlab.Proofs.Mesh.SlabRefinement
import HexSlab.Proofs.Mesh.ElementNumbers
import HexSlab.Proofs.Attempts
import HexSlab.Proofs.Exact
import HexSlab.Proofs.Krylov.PlainDivision
import HexSlab.Proofs.Krylov.Residual
import HexSlab.Proofs.Krylov.TrueResidual
import HexSlab.Proofs.Smoother.ChebyshevCoefficients
import HexSlab.Proofs.Smoother.ChebyshevPolynomial
import HexSlab.Proofs.Mesh.NodeSharing
import HexSlab.Proofs.Mesh.HexahedronFaces
import HexSlab.Proofs.Mesh.ShellFaces
import HexSlab.Proofs.Mesh.Watertight
import HexSlab.Proofs.Mesh.Neighbours
import HexSlab.Proofs.Smoother.Calls
import HexSlab.Proofs.Smoother.ChebyshevCalls
import HexSlab.Proofs.Smoother.RelaxationCalls
import HexSlab.Proofs.Smoother.ComputedSettings
import HexSlab.Proofs.Mesh.BoxSurface
import HexSlab.Proofs.Mesh.LineCalls
import HexSlab.Proofs.Mesh.RunAgreement
import HexSlab.Proofs.Krylov.InnerProduct
import HexSlab.Proofs.Krylov.ConjugateDirections
import HexSlab.Proofs.Krylov.FiniteTermination
import HexSlab.Proofs.Krylov.OrthonormalBasis
import HexSlab.Proofs.Krylov.Triangular
import HexSlab.Proofs.Krylov.Rotations
import HexSlab.Proofs.Krylov.CycleSteps
import HexSlab.Proofs.Krylov.MinimalCycles
import HexSlab.Proofs.Krylov.NonsingularSystems
import HexSlab.Proofs.Sparse.Product
import HexSlab.Proofs.Sparse.MinimumPrinciple
import HexSlab.Proofs.Sparse.BoundaryValues
import HexSlab.Proofs.Smoother.SymmetricMaps
import HexSlab.Proofs.Smoother.ChebyshevSymmetry
import HexSlab.Proofs.Smoother.Corrections
import HexSlab.Proofs.Smoother.RelaxationSymmetry
import HexSlab.Proofs.Smoother.History
import HexSlab.Proofs.Smoother.PhaseHistory
import HexSlab.Proofs.Smoother.StoredEstimate
import HexSlab.Proofs.InStep
import HexSlab.Proofs.ScaledVectors
import HexSlab.Proofs.Krylov.ScaledSystems
import HexSlab.Proofs.Krylov.ScaledCycles
import HexSlab.Proofs.Smoother.ScaledSmoothers
import HexSlab.Proofs.Krylov.ZeroStarts
import HexSlab.Proofs.Spectrum.ScaledEstimates
import HexSlab.Proofs.Krylov.ReplicatedRuns
import HexSlab.Proofs.Smoother.EigenvectorDamping
import HexSlab.Proofs.Sparse.ValidRows
import HexSlab.Proofs.Sparse.LatticeEnergy
import HexSlab.Proofs.Sparse.LaplacianSpectrum
import HexSlab.Proofs.Text.Fields
import HexSlab.Proofs.Mesh.GroupGrammar
import HexSlab.Proofs.Mesh.LineGrammar
import HexSlab.Proofs.Mesh.WrittenLines
import HexSlab.Proofs.CountedCalls
import HexSlab.Proofs.Krylov.Passes
import HexSlab.Proofs.Spectrum.TridiagonalForms
import HexSlab.Proofs.Spectrum.LanczosRuns
import HexSlab.Proofs.Smoother.PositiveIntervals
import HexSlab.Proofs.Spectrum.SpectralBounds
import HexSlab.Proofs.Spectrum.PowerQuotients
import HexSlab.Proofs.Smoother.ErrorPropagation
import HexSlab.Proofs.Smoother.FailedProducts
import HexSlab.Proofs.Smoother.RowVisits
import HexSlab.Proofs.Smoother.TriangularSystems
import HexSlab.Proofs.Smoother.EnergyDescent
import HexSlab.Proofs.RecordedDivisions
import HexSlab.Proofs.Krylov.RecordedSolves
import HexSlab.Proofs.Krylov.NonzeroDivisors
import HexSlab.Proofs.Krylov.OrthogonalAnswers
import HexSlab.Proofs.Krylov.LooserLimits
import HexSlab.Proofs.Sparse.SevenPoints
import HexSlab.Proofs.Sparse.RowArrays
import HexSlab.Proofs.Sparse.ConstrainedRows
import HexSlab.Proofs.Mesh.RightHandedTurns
import HexSlab.Proofs.Mesh.RigidMotions
import HexSlab.Proofs.RepeatedAttempts
import HexSlab.Proofs.Smoother.RepeatedComputations
import HexSlab.Proofs.Krylov.RestartKey
import HexSlab.Proofs.Parameter.LastValues

import Surd.Main
import Surd.Proofs.Equation.Failures
import Surd.Proofs.LinearSystem.Order
import Surd.Proofs.Polynomial.Escapes
import Surd.Proofs.Polynomial.Quadratic
import Surd.Proofs.Polynomial.Cubic
import Surd.Proofs.Polynomial.Quartic
import Surd.Proofs.Expr.Forbidden
import Surd.Proofs.Expr.Lexing
import Surd.Proofs.Expr.Parsing
import Surd.Proofs.Expr.Balance
import Surd.Proofs.Expr.Unchanged
import Surd.Proofs.Expr.Percentage
import Surd.Proofs.Expr.Value
import Surd.Proofs.Expr.RoundTrip
import Surd.Proofs.Expr.Printable
import Surd.Proofs.Polynomial.Linear
import Surd.Proofs.Display.Unambiguous
import Surd.Proofs.Answers
import Surd.Proofs.CommandLine.Session
import Surd.Proofs.Expr.Powers
import Surd.Proofs.Equation.Rows
import Surd.Proofs.Polynomial.Residual
import Surd.Proofs.Equation.Vanishing
import Surd.Proofs.Binary64.Decimal
import Surd.Proofs.Rational.Decimals
import Surd.Proofs.Polynomial.Merging
import Surd.Proofs.Rational.EvenRoot
import Surd.Proofs.Equation.Degree
import Surd.Proofs.Equation.Splitting
import Surd.Proofs.Radical.Overflow
import Surd.Proofs.Radical.SquareFree
import Surd.Proofs.Polynomial.Simultaneous
import Surd.Proofs.Polynomial.Circle
import Surd.Proofs.Polynomial.Settled
import Surd.Proofs.Rational.Reading
import Surd.Proofs.Rational.Newton
import Surd.Proofs.Rational.Parts

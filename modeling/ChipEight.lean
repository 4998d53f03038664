import ChipEight.Board
import ChipEight.Buzzer
import ChipEight.Command
import ChipEight.Dump
import ChipEight.Fault
import ChipEight.File.Path
import ChipEight.File.Rom
import ChipEight.File.Tree
import ChipEight.FrameBudget
import ChipEight.Headless
import ChipEight.Headless.Command
import ChipEight.Inspector
import ChipEight.Instruction
import ChipEight.Journal
import ChipEight.Keypad
import ChipEight.Listing
import ChipEight.Machine
import ChipEight.Main
import ChipEight.Memory
import ChipEight.Number.Binary64
import ChipEight.Number.Nibble
import ChipEight.Number.Quantity
import ChipEight.Options
import ChipEight.Options.Values
import ChipEight.Pacer
import ChipEight.Random
import ChipEight.Random.Twister
import ChipEight.Run
import ChipEight.Screen
import ChipEight.Screen.Render
import ChipEight.Text.Blank
import ChipEight.Text.DecimalDigit
import ChipEight.Text.Numeral
import ChipEight.Text.Padded
import ChipEight.Text.Printable
import ChipEight.Text.Quoted
import ChipEight.Text.Split
import ChipEight.Text.UpperCase
import ChipEight.Timer
import ChipEight.Window
import ChipEight.Window.Command
import ChipEight.Window.Keys
import ChipEight.Proofs.Execute
import ChipEight.Proofs.Operation
import ChipEight.Proofs.Step
import ChipEight.Proofs.Ranges
import ChipEight.Proofs.Decode
import ChipEight.Proofs.Faults
import ChipEight.Proofs.KeyWait
import ChipEight.Proofs.Subroutine
import ChipEight.Proofs.Pacing
import ChipEight.Proofs.Ending
import ChipEight.Proofs.Drivers
import ChipEight.Proofs.Reset
import ChipEight.Proofs.Effects
import ChipEight.Proofs.Listing
import ChipEight.Proofs.Accounting
import ChipEight.Proofs.Delivery
import ChipEight.Proofs.Halting
import ChipEight.Proofs.Decay
import ChipEight.Proofs.Lag
import ChipEight.Proofs.PressLog
import ChipEight.Proofs.HeldKeys
import ChipEight.Proofs.HostEvents
import ChipEight.Proofs.Pause
import ChipEight.Proofs.Sprite
import ChipEight.Proofs.ControlFlow
import ChipEight.Proofs.Arithmetic
import ChipEight.Proofs.Finish
import ChipEight.Proofs.Success
import ChipEight.Proofs.ExitStatus
import ChipEight.Proofs.Transfer
import ChipEight.Proofs.Windows
import ChipEight.Proofs.Columns
import ChipEight.Proofs.Dump
import ChipEight.Proofs.Mnemonic
import ChipEight.Proofs.Drawings
import ChipEight.Proofs.HalfBlocks
import ChipEight.Proofs.Surface
import ChipEight.Proofs.Allotment
import ChipEight.Proofs.Sounding
import ChipEight.Proofs.Wave
import ChipEight.Proofs.Loading
import ChipEight.Proofs.StepLog
import ChipEight.Proofs.HexNumerals
import ChipEight.Proofs.TypedValues
import ChipEight.Proofs.TypedKeys
import ChipEight.Proofs.Accesses
import ChipEight.Proofs.HeldSet
import ChipEight.Proofs.Amounts
import ChipEight.Proofs.WorkingRates
import ChipEight.Proofs.TraceLines
import ChipEight.Proofs.Attempts
